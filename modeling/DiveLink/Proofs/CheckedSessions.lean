import DiveLink.Proofs.CheckedTransfers
import DiveLink.Proofs.Completeness
import DiveLink.Proofs.Layouts

set_option autoImplicit false

namespace DiveLink

namespace Checked
open Dialogue

theorem readIdentity_agree :
    Agree (fun all => Identity.read all.1 = .ok all.2) readIdentity Conversation.readIdentity :=
  (ask_agree rfl).bind fun block _ =>
    (agree_ofExcept (Identity.read_faultless block)).bind fun _ read => .done read

theorem identify_agree : Agree (fun _ => True) identify Conversation.identify :=
  readIdentity_agree.bind fun _ _ => .announce (.announce (.done trivial))

theorem setClock_agree (time : DateTime) :
    Agree (fun _ => True) (setClock time) (Conversation.setClock time) :=
  (ask_agree rfl).bind fun _ _ => .done trivial

theorem leave_agree : Agree (fun _ => True) leave Conversation.leave :=
  (ask_agree rfl).bind fun _ _ => .done trivial

section
variable {layout : Layout}

theorem downloadDive_agree {entry : Bytes} {start : Progress} (enough : 9 ≤ layout.entryLength)
    (most : layout.entryLength ≤ 23) (length : entry.length = layout.entryLength) (buffer : Bytes)
    (room : start.HasRoom) :
    Agree (fun all => all.1 = DiveRecord.assemble layout entry all.2.1 ∧
        all.2.2.current.toNat ≤ start.current.toNat + Progress.steps)
      (downloadDive layout entry buffer start)
      (Conversation.downloadDive layout entry buffer start) := by
  match entry, length with
  | [], length | [_], length =>
    simp only [List.length_nil, List.length_cons] at length
    omega
  | low :: high :: more, length =>
    refine (@askBulk_agree (.dive low high) rfl buffer start room).bind fun all known => ?_
    obtain ⟨dive, now⟩ := all
    refine (agree_ofExcept (Dive.validate_faultless enough length dive)).bind fun _ _ => ?_
    have small := known.1
    have fit : DiveRecord.tagLength + (low :: high :: more).length + dive.length < UInt32.size := by
      simp only [DiveRecord.tagLength, UInt16.size, UInt32.size] at small ⊢
      omega
    exact .checked (fits_eq fit) (.done ⟨rfl, known.2⟩)

theorem downloadDives_agree {entries : List Bytes} (buffer : Bytes) {start : Progress}
    (enough : 9 ≤ layout.entryLength) (most : layout.entryLength ≤ 23)
    (printed : layout.fingerprintOffset + Fingerprint.size ≤ layout.entryLength)
    (lengths : ∀ entry ∈ entries, entry.length = layout.entryLength)
    (room : start.current.toNat + Progress.steps * entries.length < UInt32.size) :
    Agree (fun _ => True) (downloadDives layout entries buffer start)
      (Conversation.downloadDives layout entries buffer start) := by
  induction entries generalizing buffer start with
  | nil => exact .done trivial
  | cons entry older ih =>
    have length := lengths entry List.mem_cons_self
    rw [List.length_cons, Nat.mul_succ] at room
    have roomNow : start.HasRoom := by
      rw [Progress.HasRoom]
      omega
    refine (downloadDive_agree enough most length buffer roomNow).bind fun all known => ?_
    obtain ⟨record, dive, now⟩ := all
    obtain ⟨assembled, near⟩ := known
    dsimp only at assembled near ⊢
    subst assembled
    have fit : DiveRecord.tagLength + layout.fingerprintOffset + Fingerprint.size < UInt32.size := by
      simp only [DiveRecord.tagLength, UInt32.size]
      omega
    refine .checked (fits_eq fit) ?_
    rw [recordFingerprint_assemble (length ▸ printed), ofExcept_ok, done_bind, done_bind]
    refine .deliver fun reply => ?_
    cases reply with
    | stop => exact .done trivial
    | more => exact ih dive (fun e mem => lengths e (List.mem_cons_of_mem _ mem)) (by omega)

end

theorem forDives_eq {current : UInt32} {count : Nat} (small : count < UInt16.size) :
    forDives current (.ofNat count) =
      .ok ⟨current, .ofNat ((count + 1) * Progress.steps)⟩ := by
  simp only [UInt16.size] at small
  have number : UInt32.toNat (.ofNat count) = count := by
    rw [UInt32.toNat_ofNat', Nat.mod_eq_of_lt (by omega)]
  have fit : (count + 1) * Progress.steps < UInt32.size := by
    simp only [Progress.steps, UInt32.size]
    omega
  rw [forDives, number, word32, if_pos fit]
  rfl

theorem downloadNew_agree (stored : Fingerprint) :
    Agree (fun _ => True) (downloadNew stored) (Conversation.downloadNew stored) := by
  refine .announce (readIdentity_agree.bind fun all identified => ?_)
  obtain ⟨block, identity⟩ := all
  have usable := Identity.read_usable identified
  obtain ⟨enough, most⟩ := Identity.entryLength_bounds identified
  refine (@askBulk_agree (.logbook identity.layout.logbookCode) rfl [] .start
    (by decide)).bind fun logbook known => ?_
  obtain ⟨table, logbookEnd⟩ := logbook
  obtain ⟨size, near⟩ := known
  obtain ⟨entries, pending⟩ := Logbook.pending_total usable stored table
  have small : entries.length < UInt16.size := by
    have inside := Logbook.length_pending pending
    have := Nat.mul_le_mul_right entries.length enough
    dsimp only at size
    omega
  dsimp only
  rw [pending, ofExcept_ok, done_bind, done_bind, forDives_eq small, ofExcept_ok, done_bind,
    Progress.forDives_eq]
  refine .announce (downloadDives_agree [] enough most usable.fingerprint
    (fun _ => Logbook.length_mem_pending pending) ?_)
  have zero : Progress.start.current.toNat = 0 := rfl
  simp only [Progress.steps, UInt16.size, UInt32.size, zero] at small near ⊢
  omega

variable {α : Type} {P : α → Prop} {dialogue plain : Dialogue α}

theorem converse_eq (agree : Agree P dialogue plain) (receiver : Receiver)
    (value : α → Nat → Value) (session : Session) :
    converse receiver dialogue value session = session.converse receiver plain value := by
  rw [converse, run_eq agree, Session.converse, Device.perform]

theorem step_eq (step : Step) (session : Session) : Checked.step step session = session.step step := by
  cases step with
  | identify =>
    exact converse_eq identify_agree .takesAll (fun identity _ => .identity identity) session
  | downloadNew receiver =>
    exact converse_eq (downloadNew_agree _) receiver (fun _ dives => .dives dives) session
  | setClock time => exact converse_eq (setClock_agree time) .takesAll (fun _ _ => .nothing) session
  | leave => exact converse_eq leave_agree .takesAll (fun _ _ => .nothing) session
  | queue | listen | setFingerprint | renew | describe => rfl

theorem steps_eq (plan : List Step) (session : Session) :
    Checked.steps plan session = session.steps plan := by
  induction plan generalizing session with
  | nil => rfl
  | cons next later ih => simp only [steps, Session.steps, step_eq, ih]

end Checked

theorem Fingerprint.select_faultless (data : Bytes) : Faultless (select data) := by
  unfold select
  split
  · exact faultless_ok _
  · split
    · exact faultless_ok _
    · exact faultless_error nofun

theorem Device.setFingerprint_faultless (data : Bytes) (device : Device) :
    Faultless (device.setFingerprint data) :=
  (Fingerprint.select_faultless data).bind fun _ _ => faultless_ok _

theorem Run.controls_kind {calls : List Control} {script : Script} {failure : Failure ScriptCall}
    (failed : (controls calls script).result = .error failure) : failure.kind = .io := by
  induction calls generalizing script with
  | nil => cases failed
  | cons call calls ih =>
    unfold controls at failed
    generalize first : control call script = run at failed
    match outcome : run.result with
    | .ok () =>
      rw [andThen_ok outcome] at failed
      exact ih failed
    | .error cause =>
      rw [andThen_error outcome] at failed
      cases failed
      subst first
      unfold control at outcome
      split at outcome
      · cases outcome
      · cases outcome
        rfl

theorem Device.connect_kind {script : Script} {failure : Failure ScriptCall}
    (failed : (connect script).result = .error failure) : failure.kind = .io := by
  unfold connect at failed
  match outcome : (Run.controls setup script).result with
  | .ok () =>
    rw [Run.andThen_ok outcome] at failed
    cases failed
  | .error cause =>
    rw [Run.andThen_error outcome] at failed
    cases failed
    exact Run.controls_kind outcome

def Report.IsSound (report : Report) : Prop :=
  ∀ failure, report.result = .error failure → failure.kind ≠ .fault

namespace Session
open Checked

theorem quietly_isSound (value : Value) (session : Session) :
    (session.quietly value).1.IsSound := fun _ failed => nomatch failed

theorem converse_isSound {α : Type} {P : α → Prop} {dialogue plain : Dialogue α}
    (agree : dialogue.Agree P plain) (receiver : Receiver) (value : α → Nat → Value)
    (session : Session) : (session.converse receiver plain value).1.IsSound := by
  intro failure failed
  match outcome : (session.device.perform receiver plain session.script).result with
  | .ok a =>
    simp only [converse, report, outcome, Except.map] at failed
    cases failed
  | .error cause =>
    simp only [converse, report, outcome, Except.map] at failed
    cases failed
    exact agree.run_kind outcome

theorem step_isSound (step : Step) (session : Session) : (session.step step).1.IsSound := by
  cases step with
  | identify => exact converse_isSound identify_agree _ _ session
  | downloadNew receiver => exact converse_isSound (downloadNew_agree _) receiver _ session
  | setClock time => exact converse_isSound (setClock_agree time) _ _ session
  | leave => exact converse_isSound leave_agree _ _ session
  | queue | listen | renew | describe => exact quietly_isSound _ _
  | setFingerprint data =>
    unfold Session.step
    dsimp only
    split
    · exact quietly_isSound _ _
    · next why refused =>
      intro failure failed
      cases failed
      exact Device.setFingerprint_faultless data _ why refused

theorem steps_isSound (plan : List Step) (session : Session) :
    ∀ report ∈ (session.steps plan).1, report.IsSound := by
  induction plan generalizing session with
  | nil => exact nofun
  | cons next later ih =>
    exact List.forall_mem_cons.2 ⟨step_isSound next session, ih _⟩

theorem play_eq (start : Start) (script : Script) (plan : List Step) :
    Checked.play start script plan = play start script plan := by
  have same (session : Session) := congrArg Prod.fst (steps_eq plan session)
  cases start with
  | ready => exact congrArg _ (same _)
  | setup =>
    unfold Checked.play play
    dsimp only
    cases (Device.connect script).result with
    | ok => exact congrArg _ (same _)
    | error failure => rfl

theorem play_isSound (start : Start) (script : Script) (plan : List Step) :
    ∀ report ∈ play start script plan, report.IsSound := by
  cases start with
  | ready => exact List.forall_mem_cons.2 ⟨quietly_isSound _ _, steps_isSound plan _⟩
  | setup =>
    unfold play
    dsimp only
    split
    · refine List.forall_mem_cons.2 ⟨?_, steps_isSound plan _⟩
      exact fun _ failed => nomatch failed
    · next failure outcome =>
      refine List.forall_mem_singleton.2 fun _ failed => ?_
      cases failed
      rw [Device.connect_kind outcome]
      decide

/-- Whatever the script holds and whatever is asked for, no session meets a cut, a length, a
capacity or a number out of range: checking all of them changes no report, and none reports one. -/
theorem play_checked (start : Start) (script : Script) (plan : List Step) :
    Checked.play start script plan = play start script plan ∧
      ∀ report ∈ play start script plan, report.IsSound :=
  ⟨play_eq start script plan, play_isSound start script plan⟩

end Session

end DiveLink
