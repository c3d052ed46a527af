import DiveLink.Proofs.Acts
import DiveLink.Session

set_option autoImplicit false

namespace DiveLink

section Observations
variable {σ ε : Type} [ByteStream σ ε]

/-- An observation of which nothing went wrong, and what it makes of the stream. -/
inductive Observation.Passes : Observation → σ → σ → Prop
  | sleep (ms : Nat) (stream : σ) : Passes (.sleep ms) stream (ByteStream.sleep ms stream)
  | read {count : Nat} {bs : Bytes} {stream left : σ}
    (handed : ByteStream.read count stream = (.ok bs, left)) (any : bs ≠ []) :
    Passes (.read count (some bs.length)) stream left
  | write {bs : Bytes} {count : Nat} {stream left : σ}
    (taken : ByteStream.write bs stream = (.ok count, left)) (any : 0 < count) :
    Passes (.write bs (some count)) stream left
  | event (listener : String) (event : Event) (stream : σ) :
    Passes (.event listener event) stream stream
  | dive (delivery : Delivery) (stream : σ) : Passes (.dive delivery) stream stream

/-- A call that failed or moved nothing, what a run fails with for it, and what it makes of the
stream. -/
inductive Observation.Breaks : Observation → Failure ε → σ → σ → Prop
  | readFailed {count : Nat} {cause : ε} {stream left : σ}
    (failed : ByteStream.read count stream = (.error cause, left)) :
    Breaks (.read count none) (.io cause) stream left
  | readNothing {count expected transferred : Nat} {stream left : σ}
    (silent : ByteStream.read count stream = (.ok [], left)) (short : transferred < expected)
    (rest : count = expected - transferred) :
    Breaks (.read count (some 0)) (.timeout expected transferred) stream left
  | writeFailed {bs : Bytes} {cause : ε} {stream left : σ}
    (failed : ByteStream.write bs stream = (.error cause, left)) :
    Breaks (.write bs none) (.io cause) stream left
  | writeNothing {bs : Bytes} {expected transferred : Nat} {stream left : σ}
    (refused : ByteStream.write bs stream = (.ok 0, left)) (short : transferred < expected)
    (rest : bs.length = expected - transferred) :
    Breaks (.write bs (some 0)) (.timeout expected transferred) stream left

/-- Observations one after the other of which nothing went wrong. -/
inductive Smooth : List Observation → σ → σ → Prop
  | nil (stream : σ) : Smooth [] stream stream
  | cons {seen : Observation} {later : List Observation} {stream middle left : σ}
    (first : seen.Passes stream middle) (rest : Smooth later middle left) :
    Smooth (seen :: later) stream left

theorem Smooth.append {before later : List Observation} {stream middle left : σ}
    (first : Smooth before stream middle) (second : Smooth later middle left) :
    Smooth (before ++ later) stream left := by
  induction first with
  | nil => exact second
  | cons passes _ ih => exact .cons passes (ih second)

end Observations

namespace Run
variable {σ ε α β : Type} [ByteStream σ ε]

/-- A run of which either nothing went wrong with the stream, or the last observation and no other.
In the first case it does not fail for the stream, in the second it does. -/
inductive FailsFast (stream : σ) : Run σ ε α → Prop
  | smooth {run : Run σ ε α} (smooth : Smooth run.trace stream run.stream)
    (own : ∀ failure, run.result = .error failure → ∃ why, failure = .refused why) :
    FailsFast stream run
  | broken {before : List Observation} {seen : Observation} {failure : Failure ε}
    {middle left : σ} (smooth : Smooth before stream middle)
    (breaks : seen.Breaks failure middle left) :
    FailsFast stream ⟨.error failure, before ++ [seen], left⟩

namespace FailsFast
variable {stream : σ} {run : Run σ ε α}

theorem after {start : σ} {before : List Observation} (first : Smooth before start stream)
    (later : FailsFast stream run) : FailsFast start (run.after before) := by
  cases later with
  | smooth smooth own => exact .smooth (first.append smooth) own
  | broken smooth breaks =>
    rw [Run.after, ← List.append_assoc]
    exact .broken (first.append smooth) breaks

theorem andThen {next : α → σ → Run σ ε β} (first : FailsFast stream run)
    (second : ∀ a, run.result = .ok a → FailsFast run.stream (next a run.stream)) :
    FailsFast stream (run.andThen next) := by
  cases first with
  | smooth smooth own =>
    cases ended : run.result with
    | ok a =>
      rw [andThen_ok ended]
      exact (second a ended).after smooth
    | error failure =>
      rw [andThen_error ended]
      exact .smooth smooth fun _ same => own _ (ended.trans (by cases same; rfl))
  | broken smooth breaks => exact .broken smooth breaks

theorem ended (a : α) (stream : σ) : FailsFast stream (.ended (.ok a) stream : Run σ ε α) :=
  .smooth (.nil stream) nofun

theorem at_once {seen : Observation} {failure : Failure ε} {left : σ}
    (breaks : seen.Breaks failure stream left) :
    FailsFast stream (⟨.error failure, [seen], left⟩ : Run σ ε α) :=
  @broken _ _ _ _ _ [] _ _ _ _ (.nil stream) breaks

theorem map (f : α → β) (fails : FailsFast stream run) :
    FailsFast stream ⟨run.result.map f, run.trace, run.stream⟩ := by
  cases fails with
  | smooth smooth own =>
    refine .smooth smooth fun failure failed => ?_
    cases ended : run.result with
    | ok a =>
      rw [ended] at failed
      cases failed
    | error other =>
      rw [ended] at failed
      cases failed
      exact own _ ended
  | broken smooth breaks => exact .broken smooth breaks

end FailsFast

theorem readMissing_failsFast {expected missing : Nat} (due : missing ≤ expected) (stream : σ) :
    FailsFast stream (readMissing expected missing stream) := by
  fun_induction readMissing expected missing stream with
  | case1 stream => exact .ended [] stream
  | case2 missing stream any cause left read =>
    exact .at_once (.readFailed read)
  | case3 missing stream any left read =>
    exact .at_once (.readNothing read (by omega) (by omega))
  | case4 missing stream any b bs left read ih =>
    have passes : Smooth [.read missing (some (b :: bs).length)] stream left :=
      .cons (.read read (List.cons_ne_nil b bs)) (.nil left)
    exact ((ih (by omega)).andThen fun _ _ => .ended _ _).after passes

theorem writeMissing_failsFast {expected : Nat} {bs : Bytes} (due : bs.length ≤ expected)
    (stream : σ) : FailsFast stream (writeMissing expected bs stream) := by
  fun_induction writeMissing expected bs stream with
  | case1 bs stream => exact .ended () stream
  | case2 bs stream any cause left write =>
    exact .at_once (.writeFailed write)
  | case3 bs stream any left write =>
    exact .at_once (.writeNothing write (by omega) (by omega))
  | case4 bs stream any count left write ih =>
    have passes : Smooth [.write bs (some (count + 1))] stream left :=
      .cons (.write write (Nat.succ_pos count)) (.nil left)
    refine (ih ?_).after passes
    rw [List.length_drop]
    omega

end Run

theorem Dialogue.run_failsFast {σ ε α : Type} [ByteStream σ ε] (d : Dialogue α)
    (listener : Option String) (receiver : Receiver) (made : List Delivery) (stream : σ) :
    (d.run listener receiver made stream).FailsFast stream := by
  induction d generalizing made stream with
  | done a => exact .ended a stream
  | refuse why => exact .smooth (.nil stream) fun _ failed => ⟨why, by cases failed; rfl⟩
  | pause ms next ih => exact (ih made _).after (.cons (.sleep ms stream) (.nil _))
  | send bs next ih =>
    exact (Run.writeMissing_failsFast (Nat.le_refl _) stream).andThen fun _ _ => ih made _
  | receive count next ih =>
    exact (Run.readMissing_failsFast (Nat.le_refl _) stream).andThen fun bs _ => ih bs made _
  | announce event next ih =>
    refine (ih made stream).after ?_
    cases listener with
    | none => exact .nil stream
    | some name => exact .cons (.event name event stream) (.nil stream)
  | deliver dive next ih => exact (ih _ _ stream).after (.cons (.dive dive stream) (.nil stream))

theorem Session.converse_failsFast {α : Type} (receiver : Receiver) (dialogue : Dialogue α)
    (value : α → Nat → Value) (session : Session) :
    let report := (session.converse receiver dialogue value).1
    let left := (session.converse receiver dialogue value).2
    Run.FailsFast session.script
      (⟨report.result, report.trace, left.script⟩ : Run Script ScriptCall Value) :=
  (dialogue.run_failsFast session.device.listener receiver [] session.script).map _

end DiveLink
