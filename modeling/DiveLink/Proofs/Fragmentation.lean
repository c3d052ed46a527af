import Mathlib.Data.List.Forall2
import DiveLink.Proofs.Following
import DiveLink.Session

set_option autoImplicit false

namespace DiveLink

/-- What two reports of one step share, however their transfers were cut. -/
structure Report.Agrees (a b : Report) : Prop where
  result : a.result = b.result
  fingerprint : a.fingerprint = b.fingerprint
  unread : a.unread = b.unread
  /-- Pauses, events and dives, in their order. -/
  besides : a.trace.filter (!·.isTransfer) = b.trace.filter (!·.isTransfer)
  taken : a.trace.flatMap Observation.taken = b.trace.flatMap Observation.taken

namespace Session

/-- The same device on scripts that hold the same bytes and the same interruptions between
them, in whatever pieces these come and are taken. -/
structure Alike (a b : Session) : Prop where
  device : a.device = b.device
  tokens : a.script.tokens = b.script.tokens
  first : a.script.Willing
  second : b.script.Willing

def acts : List Step → Session → List (List Act)
  | [], _ => []
  | next :: later, session =>
    DiveLink.acts session.script.data (session.step next).1.trace ::
      acts later (session.step next).2

variable {a b : Session}

theorem Alike.data (alike : a.Alike b) : a.script.data = b.script.data := by
  rw [Script.data, alike.tokens, Script.data]

theorem Alike.unread (alike : a.Alike b) : a.script.unread = b.script.unread := by
  rw [Script.unread_eq_length_data, alike.data, Script.unread_eq_length_data]

structure StepAgrees (before before' : Session) (a b : Report × Session) : Prop where
  report : a.1.Agrees b.1
  acts : DiveLink.acts before.script.data a.1.trace = DiveLink.acts before'.script.data b.1.trace
  after : a.2.Alike b.2

theorem report_agrees {first second : Session} (after : first.Alike second)
    {result : Except (Failure ScriptCall) Value} {trace trace' : List Observation}
    {data data' : Bytes} (acts : DiveLink.acts data trace = DiveLink.acts data' trace') :
    (report result trace first).1.Agrees (report result trace' second).1 where
  result := rfl
  fingerprint := congrArg (fun d : Device => some d.fingerprint) after.device
  unread := after.unread
  besides := by
    have h := congrArg Act.besides acts
    rwa [Act.besides_acts, Act.besides_acts] at h
  taken := by
    have h := congrArg Act.said acts
    rwa [Act.said_acts, Act.said_acts] at h

theorem quietly_agrees (value : Value) {first second : Session} (after : first.Alike second) :
    StepAgrees a b (quietly value first) (quietly value second) :=
  ⟨report_agrees after (rfl : DiveLink.acts [] [] = DiveLink.acts [] []), rfl, after⟩

theorem converse_agrees {α : Type} (receiver : Receiver) (dialogue : Dialogue α)
    (value : α → Nat → Value) (alike : a.Alike b) :
    StepAgrees a b (converse receiver dialogue value a) (converse receiver dialogue value b) := by
  obtain ⟨device, script⟩ := a
  obtain ⟨device', script'⟩ := b
  obtain rfl : device = device' := alike.device
  have first := dialogue.run_follows device.listener receiver [] alike.first
  have second := dialogue.run_follows device.listener receiver [] alike.second
  rw [← alike.tokens] at second
  have result := first.result.trans second.result.symm
  have acts := first.acts.trans second.acts.symm
  have dives := congrArg (List.length ∘ Act.deliveries) acts
  simp only [Function.comp_apply, Act.deliveries_acts, ← Observation.countP_isDive] at dives
  have after : Alike
      ⟨device, (dialogue.run device.listener receiver [] script).stream⟩
      ⟨device, (dialogue.run device.listener receiver [] script').stream⟩ :=
    ⟨rfl, first.left.trans second.left.symm, first.willing alike.first,
      second.willing alike.second⟩
  refine ⟨?_, acts, after⟩
  simp only [converse, Device.perform, ← result, ← dives]
  exact report_agrees after acts

theorem step_agrees (step : Step) (alike : a.Alike b) :
    StepAgrees a b (a.step step) (b.step step) := by
  have ⟨device, tokens, first, second⟩ := alike
  cases step with
  | queue supplies =>
    refine quietly_agrees .nothing ⟨device, ?_, ⟨first.hands, first.takes⟩,
      ⟨second.hands, second.takes⟩⟩
    rw [Script.tokens_queue, Script.tokens_queue, tokens]
  | listen listener =>
    exact quietly_agrees .nothing ⟨congrArg (Device.listen listener) device, tokens, first, second⟩
  | setFingerprint data =>
    rw [Session.step, Session.step, ← device]
    cases a.device.setFingerprint data with
    | ok chosen => exact quietly_agrees .nothing ⟨rfl, tokens, first, second⟩
    | error why =>
      have acts : DiveLink.acts [] [] = DiveLink.acts [] [] := rfl
      exact ⟨report_agrees alike acts, rfl, alike⟩
  | identify =>
    rw [Session.step, Session.step]
    exact converse_agrees _ _ _ alike
  | downloadNew receiver =>
    rw [Session.step, Session.step, ← device]
    exact converse_agrees _ _ _ alike
  | setClock time =>
    rw [Session.step, Session.step]
    exact converse_agrees _ _ _ alike
  | leave =>
    rw [Session.step, Session.step]
    exact converse_agrees _ _ _ alike
  | renew => exact quietly_agrees .nothing ⟨rfl, tokens, first, second⟩
  | describe =>
    rw [Session.step, Session.step, ← device]
    exact quietly_agrees _ alike

theorem steps_agree (plan : List Step) (alike : a.Alike b) :
    List.Forall₂ Report.Agrees (a.steps plan).1 (b.steps plan).1 ∧
      a.acts plan = b.acts plan ∧ (a.steps plan).2.Alike (b.steps plan).2 := by
  induction plan generalizing a b with
  | nil => exact ⟨.nil, rfl, alike⟩
  | cons step later ih =>
    have now := step_agrees step alike
    obtain ⟨reports, acts, after⟩ := ih now.after
    refine ⟨.cons now.report reports, ?_, after⟩
    simp only [Session.acts, now.acts, acts]

theorem steps_agree_recut :
    let plan := [Step.listen "l", .identify, .leave, .downloadNew .takesAll]
    let whole : Session :=
      ⟨.fresh, ⟨[.bytes [0xAA, 0xAA, 0xAA, 0x00], .silence, .bytes [0x55]], [], none, []⟩⟩
    let recut : Session :=
      ⟨.fresh, ⟨[.bytes [0xAA], .bytes [], .bytes [0xAA, 0xAA, 0x00], .silence, .bytes [0x55]],
        [.atMost 1, .atMost 3], some 2, []⟩⟩
    whole.Alike recut ∧
      List.Forall₂ Report.Agrees (whole.steps plan).1 (recut.steps plan).1 ∧
      whole.acts plan = recut.acts plan ∧ (whole.steps plan).2.Alike (recut.steps plan).2 := by
  intro plan whole recut
  have alike : whole.Alike recut := ⟨rfl, by decide, by decide, by decide⟩
  exact ⟨alike, steps_agree plan alike⟩

end Session

end DiveLink
