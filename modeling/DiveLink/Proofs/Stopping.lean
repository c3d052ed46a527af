import DiveLink.Proofs.Completeness
import DiveLink.Proofs.Partway
import DiveLink.Session

set_option autoImplicit false

namespace DiveLink

/-- A receiver that has enough when it is handed the `count`-th of these dives, and not before. -/
def Receiver.StopsAt (count : Nat) (dives : List Delivery) (receiver : Receiver) : Prop :=
  ∀ n < dives.length, n < count → (receiver (dives.take (n + 1)) = .stop ↔ n + 1 = count)

theorem Receiver.stopsAfter_stopsAt (count : Nat) (dives : List Delivery) :
    (Receiver.stopsAfter count).StopsAt count dives := by
  intro n among before
  have length : (dives.take (n + 1)).length = n + 1 := List.length_take_of_le among
  simp only [stopsAfter, length, ite_eq_right_iff, reduceCtorEq, imp_false]
  omega

namespace Run
variable {σ ε α β : Type}

def dives (run : Run σ ε α) : List Delivery := run.trace.filterMap Observation.delivery?

@[simp] theorem dives_after (seen : List Observation) (run : Run σ ε α) :
    (run.after seen).dives = seen.filterMap Observation.delivery? ++ run.dives := by
  simp [dives, after]

variable [ByteStream σ ε]

theorem delivery?_of_isTransfer {seen : Observation} (transfer : seen.isTransfer = true) :
    seen.delivery? = none := by
  cases seen <;> first | rfl | cases transfer

@[simp] theorem dives_readExact (count : Nat) (stream : σ) :
    (readExact count stream).trace.filterMap Observation.delivery? = [] :=
  List.filterMap_eq_nil_iff.2 fun seen mem =>
    delivery?_of_isTransfer (isTransfer_readMissing count count stream seen mem)

@[simp] theorem dives_writeAll (bs : Bytes) (stream : σ) :
    (writeAll bs stream).trace.filterMap Observation.delivery? = [] :=
  List.filterMap_eq_nil_iff.2 fun seen mem =>
    delivery?_of_isTransfer (isTransfer_writeMissing bs.length bs stream seen mem)

/-- A run that ended well with its `count`-th dive, beside one that went on from there: it is the
part of the other up to this dive. -/
structure Cut (listener : Option String) (count : Nat) (whole stopped : Run σ ε Unit) : Prop where
  result : stopped.result = .ok ()
  last : ∃ before dive, stopped.trace = before ++ [.dive dive] ∧
    before.countP Observation.isDive + 1 = count
  rest : ∃ (later : Dialogue Unit) (made : List Delivery),
    whole = (later.run listener .takesAll made stopped.stream).after stopped.trace

theorem Cut.after {listener : Option String} {count : Nat} {whole stopped : Run σ ε Unit}
    (cut : Cut listener count whole stopped) (seen : List Observation) :
    Cut listener (seen.countP Observation.isDive + count) (whole.after seen)
      (stopped.after seen) where
  result := cut.result
  last := by
    obtain ⟨before, dive, trace, dives⟩ := cut.last
    refine ⟨seen ++ before, dive, ?_, ?_⟩
    · simp [Run.after, trace]
    · rw [List.countP_append, ← dives, Nat.add_assoc]
  rest := by
    obtain ⟨later, made, whole⟩ := cut.rest
    exact ⟨later, made, by simp [Run.after, whole]⟩

end Run

namespace Dialogue
variable {α σ ε : Type} [ByteStream σ ε] {listener : Option String} {receiver : Receiver}

@[simp] theorem dives_run_pause (ms : Nat) (next : Dialogue α) (made : List Delivery) (stream : σ) :
    ((pause ms next).run listener receiver made stream).dives =
      (next.run listener receiver made (ByteStream.sleep ms stream)).dives := rfl

@[simp] theorem dives_run_announce (event : Event) (next : Dialogue α) (made : List Delivery)
    (stream : σ) : ((announce event next).run listener receiver made stream).dives =
      (next.run listener receiver made stream).dives := by
  cases listener <;> rfl

@[simp] theorem dives_run_deliver (dive : Delivery) (next : DiveControl → Dialogue α)
    (made : List Delivery) (stream : σ) :
    ((deliver dive next).run listener .takesAll made stream).dives =
      dive :: ((next .more).run listener .takesAll (made ++ [dive]) stream).dives := rfl

theorem run_wanted (d : Dialogue α) (made : List Delivery) (stream : σ)
    (wants : ∀ n < (d.run listener .takesAll made stream).dives.length,
      receiver (made ++ (d.run listener .takesAll made stream).dives.take (n + 1)) = .more) :
    d.run listener receiver made stream = d.run listener .takesAll made stream := by
  induction d generalizing made stream with
  | done a => rfl
  | refuse why => rfl
  | pause ms next ih =>
    rw [dives_run_pause] at wants
    simp only [run, ih made _ wants]
  | send bs next ih =>
    simp only [run] at wants ⊢
    cases sent : (Run.writeAll bs stream).result with
    | error why => simp [Run.andThen_error sent]
    | ok a =>
      simp only [Run.andThen_ok sent] at wants ⊢
      rw [ih made _ (by simpa using wants)]
  | receive count next ih =>
    simp only [run] at wants ⊢
    cases received : (Run.readExact count stream).result with
    | error why => simp [Run.andThen_error received]
    | ok bs =>
      simp only [Run.andThen_ok received] at wants ⊢
      rw [ih bs made _ (by simpa using wants)]
  | announce event next ih =>
    rw [dives_run_announce] at wants
    simp only [run, ih made _ wants]
  | deliver dive next ih =>
    rw [dives_run_deliver] at wants
    have first : receiver (made ++ [dive]) = .more := wants 0 (by simp)
    have later := ih .more (made ++ [dive]) stream fun n among => by
      simpa using wants (n + 1) (by simpa using among)
    simp only [run, first, later]
    rfl

/-- A dialogue that is over, and successfully so, as soon as a receiver has enough. -/
def Yielding : Dialogue Unit → Prop
  | done _ | refuse _ => True
  | pause _ next | send _ next | announce _ next => next.Yielding
  | receive _ next => ∀ bs, (next bs).Yielding
  | deliver _ next => next .stop = done () ∧ (next .more).Yielding

theorem Keeps.bind_yielding {d : Dialogue α} {f : α → Dialogue Unit} (first : d.Keeps .undelivering)
    (second : ∀ a, (f a).Yielding) : (d >>= f).Yielding := by
  induction d with
  | done a => exact second a
  | refuse why => trivial
  | pause ms next ih => exact ih first
  | send bs next ih => exact ih first.2
  | receive count next ih => exact fun bs => ih bs (first bs)
  | announce event next ih => exact ih first.2
  | deliver dive next ih => exact first.1.elim

theorem run_cut {d : Dialogue Unit} (yielding : d.Yielding) (made : List Delivery) (stream : σ)
    {count : Nat} (among : count < (d.run listener .takesAll made stream).dives.length)
    (wants : ∀ n < count,
      receiver (made ++ (d.run listener .takesAll made stream).dives.take (n + 1)) = .more)
    (stops :
      receiver (made ++ (d.run listener .takesAll made stream).dives.take (count + 1)) = .stop) :
    Run.Cut listener (count + 1) (d.run listener .takesAll made stream)
      (d.run listener receiver made stream) := by
  -- Only a delivery lowers `count`. Everything else is done by both, and stands before the cut.
  induction d generalizing made stream count with
  | done a => exact absurd among (Nat.not_lt_zero count)
  | refuse why => exact absurd among (Nat.not_lt_zero count)
  | pause ms next ih =>
    rw [dives_run_pause] at among wants stops
    simpa [run, Observation.isDive] using (ih yielding made _ among wants stops).after [.sleep ms]
  | send bs next ih =>
    simp only [run] at among wants stops ⊢
    have none : (Run.writeAll bs stream).trace.countP Observation.isDive = 0 := by
      simp [Observation.countP_isDive]
    cases sent : (Run.writeAll bs stream).result with
    | error why => simp [Run.andThen_error sent, Run.dives] at among
    | ok a =>
      simp only [Run.andThen_ok sent, Run.dives_after, Run.dives_writeAll, List.nil_append]
        at among wants stops ⊢
      simpa [none] using (ih yielding made _ among wants stops).after (Run.writeAll bs stream).trace
  | receive count' next ih =>
    simp only [run] at among wants stops ⊢
    have none : (Run.readExact count' stream).trace.countP Observation.isDive = 0 := by
      simp [Observation.countP_isDive]
    cases received : (Run.readExact count' stream).result with
    | error why => simp [Run.andThen_error received, Run.dives] at among
    | ok bs =>
      simp only [Run.andThen_ok received, Run.dives_after, Run.dives_readExact, List.nil_append]
        at among wants stops ⊢
      simpa [none] using
        (ih bs (yielding bs) made _ among wants stops).after (Run.readExact count' stream).trace
  | announce event next ih =>
    rw [dives_run_announce] at among wants stops
    have cut := (ih yielding made _ among wants stops).after (listener.toList.map (.event · event))
    cases listener <;> simpa [run, Observation.isDive] using cut
  | deliver dive next ih =>
    obtain ⟨ends, goesOn⟩ := yielding
    rw [dives_run_deliver] at among wants stops
    cases count with
    | zero =>
      have enough : receiver (made ++ [dive]) = .stop := by simpa using stops
      simp only [run, enough, ends]
      exact ⟨rfl, ⟨[], dive, rfl, rfl⟩, next .more, made ++ [dive], rfl⟩
    | succ count =>
      have first : receiver (made ++ [dive]) = .more := by simpa using wants 0 (Nat.succ_pos count)
      have cut := (ih .more goesOn (made ++ [dive]) stream (by simpa using among)
        (fun n before => by simpa using wants (n + 1) (Nat.succ_lt_succ before))
        (by simpa using stops)).after [.dive dive]
      simp only [run, first]
      rwa [Nat.add_comm] at cut

theorem run_stopped {d : Dialogue Unit} (yielding : d.Yielding) (listener : Option String)
    (stream : σ) {count : Nat} (any : 0 < count)
    (stops : receiver.StopsAt count (d.run listener .takesAll [] stream).dives) :
    let whole := d.run listener .takesAll [] stream
    let stopped := d.run listener receiver [] stream
    (whole.dives.length < count → stopped = whole) ∧
      (count ≤ whole.dives.length → Run.Cut listener count whole stopped) := by
  intro whole stopped
  have wants (n : Nat) (among : n < whole.dives.length) (before : n + 1 < count) :
      receiver ([] ++ whole.dives.take (n + 1)) = .more := by
    have h := stops n among (Nat.lt_of_succ_lt before)
    cases answer : receiver ([] ++ whole.dives.take (n + 1)) with
    | more => rfl
    | stop => exact absurd (h.1 answer) (by omega)
  constructor
  · intro fewer
    exact d.run_wanted [] stream fun n among => wants n among (Nat.lt_of_le_of_lt among fewer)
  · intro enough
    obtain ⟨last, rfl⟩ := Nat.exists_eq_succ_of_ne_zero (Nat.ne_of_gt any)
    exact run_cut yielding [] stream enough
      (fun n before => wants n (Nat.lt_trans before enough) (Nat.succ_lt_succ before))
      ((stops last enough (Nat.lt_succ_self last)).2 rfl)

end Dialogue

open Dialogue

namespace Conversation
open Exchange

theorem yielding_downloadDives (layout : Layout) (entries : List Bytes) (buffer : Bytes)
    (start : Progress) : (downloadDives layout entries buffer start).Yielding := by
  induction entries generalizing buffer start with
  | nil => trivial
  | cons entry older ih =>
    have fetches : (downloadDive layout entry buffer start).Keeps .undelivering :=
      keeps_downloadDive (fun _ => trivial) trivial (fun _ => trivial) layout entry buffer start
    exact fetches.bind_yielding fun all =>
      (keeps_ofExcept _).bind_yielding fun _ => ⟨rfl, ih all.2.1 all.2.2⟩

theorem yielding_downloadNew (stored : Fingerprint) : (downloadNew stored).Yielding :=
  (keeps_readIdentity fun _ => trivial).bind_yielding fun _ =>
    (keeps_askBulk trivial (fun _ => trivial) trivial [] .start).bind_yielding fun _ =>
      (keeps_ofExcept _).bind_yielding fun _ => yielding_downloadDives _ _ _ _

end Conversation

namespace Session
variable {receiver : Receiver} {count : Nat}

/-- A download that ended well with its `count`-th dive, beside one that went on from there: its
trace is that of the other up to this dive, and the stream is left where the other went on. -/
structure CutAt (count : Nat) (whole stopped : Report × Session) : Prop where
  result : stopped.1.result = .ok (.dives count)
  trace : ∃ before dive after, stopped.1.trace = before ++ [.dive dive] ∧
    whole.1.trace = before ++ .dive dive :: after ∧ before.countP Observation.isDive + 1 = count
  rest : ∃ (later : Dialogue Unit) (made : List Delivery),
    let run := later.run stopped.2.device.listener .takesAll made stopped.2.script
    whole.1.trace = stopped.1.trace ++ run.trace ∧ whole.2.script = run.stream
  device : stopped.2.device = whole.2.device
  fingerprint : stopped.1.fingerprint = whole.1.fingerprint

def reportDives (session : Session) (run : Run Script ScriptCall Unit) : Report × Session :=
  report (run.result.map fun _ => .dives (run.trace.countP Observation.isDive)) run.trace
    { session with script := run.stream }

theorem reportDives_cut (session : Session) {whole stopped : Run Script ScriptCall Unit}
    (cut : Run.Cut session.device.listener count whole stopped) :
    CutAt count (session.reportDives whole) (session.reportDives stopped) := by
  obtain ⟨before, dive, trace, number⟩ := cut.last
  obtain ⟨later, made, rest⟩ := cut.rest
  constructor
  case result =>
    simp [reportDives, report, cut.result, Except.map, trace, number, Observation.isDive]
  case trace =>
    have after : whole.trace = before ++ .dive dive ::
        (later.run session.device.listener .takesAll made stopped.stream).trace := by
      simp [rest, Run.after, trace]
    exact ⟨before, dive, _, trace, after, number⟩
  case rest =>
    refine ⟨later, made, ?_⟩
    rw [rest]
    exact ⟨rfl, rfl⟩
  case device => rfl
  case fingerprint => rfl

/-- A download whose receiver has enough with the `count`-th dive, beside one on the same stream
whose receiver wants all: where the other comes to fewer dives the two are the same, however they
end. Otherwise it succeeds with exactly these dives, after what the other did up to the last of
them and nothing else. -/
theorem downloadNew_stopped (session : Session) (any : 0 < count)
    (stops : receiver.StopsAt count
      ((session.step (.downloadNew .takesAll)).1.trace.filterMap Observation.delivery?)) :
    let whole := session.step (.downloadNew .takesAll)
    let stopped := session.step (.downloadNew receiver)
    let dives := whole.1.trace.countP Observation.isDive
    (dives < count → stopped = whole) ∧ (count ≤ dives → CutAt count whole stopped) := by
  intro whole stopped dives
  have total : (session.device.perform .takesAll
      (Conversation.downloadNew session.device.fingerprint) session.script).dives.length = dives :=
    (Observation.countP_isDive _).symm
  obtain ⟨same, cut⟩ := run_stopped (Conversation.yielding_downloadNew session.device.fingerprint)
    session.device.listener session.script any stops
  constructor
  · intro fewer
    exact congrArg session.reportDives (same (total ▸ fewer))
  · intro enough
    exact session.reportDives_cut (cut (total ▸ enough))

set_option maxRecDepth 100000 in
theorem downloadNew_stopped_first :
    let block : Bytes := [1, 2, 3, 4, 1, 200, 0, 0, 0, 0, 0]
    let older : Bytes := [4, 0, 9, 20, 1, 2, 3, 4, 4, 0, 0, 0, 0, 0, 0]
    let newer : Bytes := [5, 0, 9, 20, 1, 2, 3, 4, 5, 0, 0, 0, 0, 0, 0]
    let logbook := BulkAnswer.plain (older ++ newer) (by decide)
    let answer := BulkAnswer.plain [5, 0, 7, 7, 20, 1, 2, 3, 4, 5] (by decide)
    let session : Session :=
      ⟨.fresh, ⟨[.bytes (Packet.wire 0 block ++ logbook.wire ++ answer.wire)], [], none, []⟩⟩
    let whole := session.step (.downloadNew .takesAll)
    let stopped := session.step (.downloadNew (.stopsAfter 1))
    whole.1.result = .error (.timeout 4 0) ∧ CutAt 1 whole stopped := by
  intro block older newer logbook answer session whole stopped
  have seen : whole.1.result = .error (.timeout 4 0) ∧
      1 ≤ whole.1.trace.countP Observation.isDive := by decide +kernel
  have cut := session.downloadNew_stopped (Nat.succ_pos 0) (Receiver.stopsAfter_stopsAt 1 _)
  exact ⟨seen.1, cut.2 seen.2⟩

end Session

end DiveLink
