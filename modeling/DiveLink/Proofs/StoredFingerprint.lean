import DiveLink.Session

set_option autoImplicit false

namespace DiveLink

/-- What a step makes the stored fingerprint, whatever it was before. -/
inductive Step.Sets : Step → Fingerprint → Prop
  | given {data : Bytes} (six : data.length = 6) : Sets (.setFingerprint data) ⟨data, six⟩
  | cleared : Sets (.setFingerprint []) .zero
  | renewed : Sets .renew .zero

/-- The fingerprint that is left by the last of the steps to make one, or else the first one. -/
inductive Remains (first : Fingerprint) (plan : List Step) : Fingerprint → Prop
  | untouched (none : ∀ step ∈ plan, ∀ other, ¬ step.Sets other) : Remains first plan first
  | set {before after : List Step} {step : Step} {f : Fingerprint}
    (split : plan = before ++ step :: after) (sets : step.Sets f)
    (last : ∀ later ∈ after, ∀ other, ¬ later.Sets other) : Remains first plan f

variable {step : Step} {plan : List Step} {first f g : Fingerprint}

theorem Step.Sets.unique (left : step.Sets f) (right : step.Sets g) : f = g := by
  cases left with
  | given six =>
    cases right with
    | given => rfl
    | cleared => cases six
  | cleared =>
    cases right with
    | given six => cases six
    | cleared => rfl
  | renewed => cases right with | renewed => rfl

theorem Fingerprint.select_eq_ok_iff {data : Bytes} :
    select data = .ok f ↔ (Step.setFingerprint data).Sets f := by
  constructor
  · intro ok
    unfold select at ok
    split at ok
    · next six =>
      cases ok
      exact .given six
    · split at ok
      · next empty =>
        cases ok
        exact empty ▸ .cleared
      · cases ok
  · intro sets
    cases sets with
    | given six => exact dif_pos six
    | cleared => rfl

namespace Remains

theorem last_unique {before after before' after' : List Step} {step' : Step}
    (split : before ++ step :: after = before' ++ step' :: after') (sets : step.Sets f)
    (last : ∀ later ∈ after, ∀ other, ¬ later.Sets other) (sets' : step'.Sets g)
    (last' : ∀ later ∈ after', ∀ other, ¬ later.Sets other) : step = step' := by
  rcases List.append_eq_append_iff.1 split with ⟨between, -, rest⟩ | ⟨between, -, rest⟩
  · rcases between with _ | ⟨same, between⟩
    · exact (List.cons.inj rest).1
    · have later : step' ∈ after := by simp [(List.cons.inj rest).2]
      exact absurd sets' (last step' later g)
  · rcases between with _ | ⟨same, between⟩
    · exact (List.cons.inj rest).1.symm
    · have later : step ∈ after' := by simp [(List.cons.inj rest).2]
      exact absurd sets (last' step later f)

theorem unique (left : Remains first plan f) (right : Remains first plan g) : f = g := by
  cases left with
  | untouched none =>
    cases right with
    | untouched => rfl
    | set split sets last => exact absurd sets (none _ (by simp [split]) _)
  | set split sets last =>
    cases right with
    | untouched none => exact absurd sets (none _ (by simp [split]) _)
    | set split' sets' last' =>
      have same := last_unique (split.symm.trans split') sets last sets' last'
      exact sets.unique (same ▸ sets')

theorem cons (sets : ∀ other, step.Sets other → g = other)
    (keeps : (∀ other, ¬ step.Sets other) → g = first) (later : Remains g plan f) :
    Remains first (step :: plan) f := by
  cases later with
  | @set before after setting _ split sets last =>
    exact @set _ _ (step :: before) after setting _ (by rw [split, List.cons_append]) sets last
  | untouched none =>
    by_cases some : ∃ other, step.Sets other
    · obtain ⟨other, made⟩ := some
      exact .set (List.nil_append _).symm (sets other made ▸ made) none
    · have quiet := not_exists.1 some
      rw [keeps quiet]
      exact .untouched (List.forall_mem_cons.2 ⟨quiet, none⟩)

end Remains

namespace Session

variable {session : Session}

theorem step_setFingerprint {data : Bytes} (ok : Fingerprint.select data = .ok f) :
    session.step (.setFingerprint data) =
      quietly .nothing { session with device := { session.device with fingerprint := f } } := by
  rw [step, Device.setFingerprint, ok]
  rfl

theorem step_setFingerprint_refused {data : Bytes} {why : Refusal}
    (refused : Fingerprint.select data = .error why) :
    session.step (.setFingerprint data) = session.report (.error (.refused why)) [] := by
  rw [step, Device.setFingerprint, refused]
  rfl

theorem step_setFingerprint_length {data : Bytes} (any : data.length ≠ 0)
    (other : data.length ≠ 6) : session.step (.setFingerprint data) =
      session.report (.error (.refused (.fingerprintSize data.length))) [] :=
  step_setFingerprint_refused
    ((dif_neg other).trans (if_neg fun empty => any (congrArg List.length empty)))

theorem step_reports (step : Step) (session : Session) :
    (session.step step).1.fingerprint = some (session.step step).2.device.fingerprint := by
  cases step with
  | setFingerprint data =>
    cases stored : Fingerprint.select data with
    | ok f =>
      rw [step_setFingerprint stored]
      rfl
    | error why =>
      rw [step_setFingerprint_refused stored]
      rfl
  | queue | listen | identify | downloadNew | setClock | leave | renew | describe => rfl

theorem step_sets (sets : step.Sets f) : (session.step step).2.device.fingerprint = f := by
  cases sets with
  | given six =>
    rw [step_setFingerprint (Fingerprint.select_eq_ok_iff.2 (.given six))]
    rfl
  | cleared =>
    rw [step_setFingerprint (Fingerprint.select_eq_ok_iff.2 .cleared)]
    rfl
  | renewed => rfl

theorem step_keeps (none : ∀ other, ¬ step.Sets other) :
    (session.step step).2.device.fingerprint = session.device.fingerprint := by
  cases step with
  | setFingerprint data =>
    cases stored : Fingerprint.select data with
    | ok f => exact absurd (Fingerprint.select_eq_ok_iff.1 stored) (none f)
    | error why =>
      rw [step_setFingerprint_refused stored]
      rfl
  | renew => exact absurd .renewed (none _)
  | queue | listen | identify | downloadNew | setClock | leave | describe => rfl

theorem steps_remains (plan : List Step) (session : Session) :
    (session.steps plan).1.length = plan.length ∧
    ∀ (j : Nat) (report : Report), (session.steps plan).1[j]? = some report →
      ∃ f, report.fingerprint = some f ∧
        Remains session.device.fingerprint (plan.take (j + 1)) f := by
  induction plan generalizing session with
  | nil => exact ⟨rfl, nofun⟩
  | cons step plan ih =>
    obtain ⟨length, later⟩ := ih (session.step step).2
    -- What remains of the first step is what the other steps begin with.
    have through {n : Nat} {f : Fingerprint}
        (left : Remains (session.step step).2.device.fingerprint (plan.take n) f) :
        Remains session.device.fingerprint ((step :: plan).take (n + 1)) f :=
      left.cons (fun _ => step_sets) step_keeps
    refine ⟨congrArg (· + 1) length, ?_⟩
    rintro (_ | j) report found
    · cases found
      exact ⟨_, step_reports step session, through (.untouched nofun)⟩
    · obtain ⟨f, told, left⟩ := later j report found
      exact ⟨f, told, through left⟩

theorem play_remains {start : Start} {script : Script} {plan : List Step}
    (started : start = .setup → (Device.connect script).result = .ok ()) :
    (play start script plan).length = plan.length + 1 ∧
    ∀ (j : Nat) (report : Report), (play start script plan)[j]? = some report →
      ∃ f, report.fingerprint = some f ∧ Remains .zero (plan.take j) f := by
  obtain ⟨script', first, told, plays⟩ : ∃ script' first, Report.fingerprint first = some .zero ∧
      play start script plan = first :: (steps plan ⟨.fresh, script'⟩).1 := by
    cases start with
    | ready => exact ⟨script, _, rfl, rfl⟩
    | setup => exact ⟨_, _, rfl, by rw [play, started rfl]⟩
  obtain ⟨length, later⟩ := steps_remains plan ⟨.fresh, script'⟩
  rw [plays]
  refine ⟨congrArg (· + 1) length, ?_⟩
  rintro (_ | j) report found
  · cases found
    exact ⟨.zero, told, .untouched nofun⟩
  · exact later j report found

/-- The stored fingerprint is at all times the one given last, or zeros when that was cleared or
the device taken anew, or nothing given. A length that is neither none nor six changes nothing, and
no download touches the device. -/
theorem play_fingerprint :
    (∀ (start : Start) (script : Script) (plan : List Step),
      (start = .setup → (Device.connect script).result = .ok ()) →
        (play start script plan).length = plan.length + 1 ∧
        ∀ (j : Nat) (report : Report), (play start script plan)[j]? = some report →
          report.fingerprint.isSome ∧
          ∀ f, report.fingerprint = some f ↔ Remains .zero (plan.take j) f) ∧
    (∀ (script : Script) (plan : List Step) (failure : Failure ScriptCall),
      (Device.connect script).result = .error failure →
        (play .setup script plan).map Report.fingerprint = [none]) ∧
    (∀ (session : Session) (data : Bytes), data.length ≠ 0 → data.length ≠ 6 →
      session.step (.setFingerprint data) =
        (⟨.error (.refused (.fingerprintSize data.length)), [], some session.device.fingerprint,
          session.script.unread⟩, session)) ∧
    ∀ (session : Session) (receiver : Receiver),
      (session.step (.downloadNew receiver)).2.device = session.device := by
  refine ⟨?_, ?_, fun _ _ any other => step_setFingerprint_length any other, fun _ _ => rfl⟩
  · intro start script plan started
    obtain ⟨length, later⟩ := @play_remains start script plan started
    refine ⟨length, fun j report found => ?_⟩
    obtain ⟨f, told, left⟩ := later j report found
    refine ⟨Option.isSome_of_eq_some told, fun g => ⟨?_, ?_⟩⟩
    · rw [told]
      rintro ⟨⟩
      exact left
    · intro other
      rw [told, left.unique other]
  · intro script plan failure failed
    rw [play, failed]
    rfl

theorem play_fingerprint_given :
    let script : Script := ⟨[.silence], [], none, []⟩
    let plan : List Step := [.setFingerprint [1, 2, 3, 4, 5, 6], .setFingerprint [7, 8],
      .downloadNew .takesAll, .setFingerprint []]
    (play .setup script plan).map (Option.map Fingerprint.bytes ∘ Report.fingerprint) =
      [some [0, 0, 0, 0, 0, 0], some [1, 2, 3, 4, 5, 6], some [1, 2, 3, 4, 5, 6],
        some [1, 2, 3, 4, 5, 6], some [0, 0, 0, 0, 0, 0]] ∧
    (∀ f, Remains .zero (plan.take 3) f ↔ f.bytes = [1, 2, 3, 4, 5, 6]) ∧
    (play .setup { script with failing := [.timeout] } plan).map Report.fingerprint = [none] ∧
    ((⟨.fresh, script⟩ : Session).step (.setFingerprint [7, 8])).1.result =
      .error (.refused (.fingerprintSize 2)) := by
  intro script plan
  have started : (Device.connect script).result = .ok () := rfl
  have failed : (Device.connect { script with failing := [.timeout] }).result =
      .error (.io .timeout) := rfl
  obtain ⟨after, broken, other, -⟩ := play_fingerprint
  obtain ⟨third, found⟩ : ∃ third, (play .setup script plan)[3]? = some third := ⟨_, rfl⟩
  have told := ((after .setup script plan fun _ => started).2 3 third found).2
  have kept : (play .setup script plan)[3]?.bind Report.fingerprint =
      some ⟨[1, 2, 3, 4, 5, 6], rfl⟩ := by decide +kernel
  have whole : (play .setup script plan).map (Option.map Fingerprint.bytes ∘ Report.fingerprint) =
      [some [0, 0, 0, 0, 0, 0], some [1, 2, 3, 4, 5, 6], some [1, 2, 3, 4, 5, 6],
        some [1, 2, 3, 4, 5, 6], some [0, 0, 0, 0, 0, 0]] := by decide +kernel
  refine ⟨whole, fun f => ?_, broken _ plan _ failed, ?_⟩
  · rw [found, Option.bind_some] at kept
    rw [← told f, kept, Option.some_inj, eq_comm]
    exact ⟨congrArg Fingerprint.bytes, fun bytes => by cases f; cases bytes; rfl⟩
  · rw [other _ [7, 8] (by decide) (by decide)]
    rfl

end Session

end DiveLink
