import Mathlib.Data.List.Infix
import DiveLink.Proofs.Fragmentation
import DiveLink.Proofs.PacketFormat

set_option autoImplicit false

namespace DiveLink

inductive Effect where
  | output (b : UInt8)
  | other (seen : Observation)
  deriving DecidableEq, Repr

def Observation.effects (seen : Observation) : List Effect :=
  seen.taken.map .output ++ if seen.isTransfer then [] else [.other seen]

namespace Act

def effects (act : Act) : List Effect :=
  act.went.map .output ++ (act.observation?.map .other).toList

theorem effects_act (data : Bytes) (seen : Observation) :
    (seen.act data).effects = seen.effects := by
  cases seen with
  | write offered count => cases count <;> rfl
  | _ => rfl

theorem effects_join (act : Act) (later : List Act) :
    (act.join later).flatMap effects = act.effects ++ later.flatMap effects := by
  fun_cases Act.join act later with
  | case1 bs taken more rest failed later parts =>
    obtain ⟨-, -, rfl⟩ := parts
    simp [effects, went, observation?, List.take_add]
  | case2 | case4 | case5 => rfl
  | case3 => simp [effects, went, observation?]

theorem effects_acts (data : Bytes) (trace : List Observation) :
    (acts data trace).flatMap effects = trace.flatMap Observation.effects := by
  induction trace generalizing data with
  | nil => rfl
  | cons seen later ih =>
    simp only [acts, effects_join, effects_act, ih, List.flatMap_cons]

end Act

namespace Token

def line (bs : Bytes) (times : Nat) : List Token := bs.map byte ++ List.replicate times silence

@[simp] theorem data_line (bs : Bytes) (times : Nat) : data (line bs times) = bs :=
  data_silent bs times

theorem data_receive (count : Nat) (tokens : List Token) :
    data tokens = (receive count tokens).bytes ++ data (receive count tokens).left := by
  fun_induction receive count tokens with
  | case1 | case2 | case3 | case4 => rfl
  | case5 count b later rest ih => simp [data, rest, ih]

end Token

/-- A passage that ended because nothing more came after these bytes, beside one on a line that went
on: up to the wait for more the two are the same. -/
structure Passage.Broken {α : Type} (came : Bytes) (full short : Passage α) : Prop where
  result : ∃ expected transferred, transferred < expected ∧
    short.result = .error (.timeout expected transferred)
  heard : Act.heard short.acts = came
  acts : ∃ before due got, short.acts = before ++ [.received due got false] ∧ before <+: full.acts

theorem Passage.Broken.after {α : Type} {came : Bytes} {full short : Passage α}
    (broken : Broken came full short) (seen : List Act) :
    Broken (Act.heard seen ++ came) (full.after seen) (short.after seen) where
  result := broken.result
  heard := by rw [after_acts, Act.heard_append, broken.heard]
  acts := by
    obtain ⟨before, due, got, acts, front⟩ := broken.acts
    refine ⟨seen ++ before, due, got, ?_, ?_⟩
    · rw [after_acts, acts, List.append_assoc]
    · rw [after_acts]
      exact (List.prefix_append_right_inj seen).2 front

namespace Dialogue
variable {α : Type} {listener : Option String} {receiver : Receiver}

theorem follow_heard (d : Dialogue α) (made : List Delivery) (tokens : List Token) :
    Token.data tokens = Act.heard (d.follow listener receiver made tokens).acts ++
      Token.data (d.follow listener receiver made tokens).left := by
  induction d generalizing made tokens with
  | done a => rfl
  | refuse why => rfl
  | pause ms next ih => simpa [follow, Act.came] using ih made tokens
  | send bs next ih => simpa [follow] using ih made tokens
  | receive count next ih =>
    have receipt := Token.data_receive count tokens
    simp only [follow]
    split
    · rw [Passage.after_acts, Passage.after_left, Act.heard_append, Act.heard_reception,
        List.append_assoc, ← ih, ← receipt]
    · simpa [Act.came] using receipt
  | announce event next ih => simpa [follow] using ih made tokens
  | deliver dive next ih => simpa [follow, Act.came] using ih _ _ tokens

theorem follow_receive_some {bs : Bytes} {count : Nat} (fit : count ≤ bs.length)
    (next : Bytes → Dialogue α) (made : List Delivery) (times : Nat) :
    (receive count next).follow listener receiver made (Token.line bs times) =
      ((next (bs.take count)).follow listener receiver made
        (Token.line (bs.drop count) times)).after (Act.reception (bs.take count)) := by
  simp [follow, Token.line, Token.receive_take fit, fit]

theorem follow_receive_kept {bs : Bytes} {count kept : Nat} (fit : count ≤ bs.length)
    (within : count ≤ kept) (next : Bytes → Dialogue α) (made : List Delivery) (times : Nat) :
    (receive count next).follow listener receiver made (Token.line (bs.take kept) times) =
      ((next (bs.take count)).follow listener receiver made
        (Token.line ((bs.drop count).take (kept - count)) times)).after
          (Act.reception (bs.take count)) := by
  have whole : count ≤ (bs.take kept).length := by
    rw [List.length_take]
    omega
  rw [follow_receive_some whole, List.take_take, Nat.min_eq_left within, List.drop_take]

theorem follow_receive_few {bs : Bytes} {count : Nat} (few : bs.length < count)
    (next : Bytes → Dialogue α) (made : List Delivery) (times : Nat) :
    (receive count next).follow listener receiver made (Token.line bs times) =
      ⟨.error (.timeout count bs.length), [.received count bs false],
        List.replicate (times - 1) .silence⟩ := by
  simp [follow, Token.line, Token.receive_silent few, Nat.ne_of_lt few, shortfall]

/-- Who does not read beyond the cut does not notice it. -/
theorem follow_uncut (d : Dialogue α) (made : List Delivery) (bs : Bytes) (kept times times' : Nat)
    (enough :
      (Act.heard (d.follow listener receiver made (Token.line bs times)).acts).length ≤ kept) :
    let full := d.follow listener receiver made (Token.line bs times)
    let short := d.follow listener receiver made (Token.line (bs.take kept) times')
    short.result = full.result ∧ short.acts = full.acts := by
  induction d generalizing made bs kept with
  | done a => exact ⟨rfl, rfl⟩
  | refuse why => exact ⟨rfl, rfl⟩
  | pause ms next ih =>
    simpa [follow] using ih made bs kept (by simpa [follow, Act.came] using enough)
  | send out next ih => simpa [follow] using ih made bs kept (by simpa [follow] using enough)
  | receive count next ih =>
    by_cases fit : count ≤ bs.length
    · rw [follow_receive_some fit] at enough ⊢
      simp only [Passage.after_acts, Act.heard_append, Act.heard_reception, List.length_append,
        List.length_take_of_le fit] at enough
      rw [follow_receive_kept fit (by omega)]
      simpa using ih (bs.take count) made (bs.drop count) (kept - count) (by omega)
    · have few := Nat.lt_of_not_le fit
      rw [follow_receive_few few] at enough ⊢
      have all : bs.take kept = bs := List.take_of_length_le (by simpa [Act.came] using enough)
      rw [all, follow_receive_few few]
      exact ⟨rfl, rfl⟩
  | announce event next ih => simpa [follow] using ih made bs kept (by simpa [follow] using enough)
  | deliver dive next ih =>
    simpa [follow] using ih _ _ bs kept (by simpa [follow, Act.came] using enough)

theorem follow_cut (d : Dialogue α) (made : List Delivery) (bs : Bytes) (kept times times' : Nat)
    (more :
      kept < (Act.heard (d.follow listener receiver made (Token.line bs times)).acts).length) :
    Passage.Broken (bs.take kept) (d.follow listener receiver made (Token.line bs times))
      (d.follow listener receiver made (Token.line (bs.take kept) times')) := by
  -- What was heard so far is a part of what was kept, so the cut moves nearer with every reception.
  induction d generalizing made bs kept with
  | done a => exact absurd more (Nat.not_lt_zero kept)
  | refuse why => exact absurd more (Nat.not_lt_zero kept)
  | pause ms next ih =>
    have broken := ih made bs kept (by simpa [follow, Act.came] using more)
    simpa [follow, Act.came] using broken.after [.paused ms]
  | send out next ih =>
    have broken := ih made bs kept (by simpa [follow] using more)
    simpa [follow] using broken.after (Act.sending out)
  | receive count next ih =>
    have held : Token.data (Token.line bs times) = Act.heard ((receive count next).follow listener
        receiver made (Token.line bs times)).acts ++ _ := follow_heard _ made _
    have inside : kept < bs.length := by
      rw [Token.data_line] at held
      rw [held, List.length_append]
      omega
    by_cases within : count ≤ kept
    · have fit : count ≤ bs.length := by omega
      have both : bs.take count ++ (bs.drop count).take (kept - count) = bs.take kept := by
        rw [← List.take_add, Nat.add_sub_cancel' within]
      rw [follow_receive_some fit] at more ⊢
      simp only [Passage.after_acts, Act.heard_append, Act.heard_reception, List.length_append,
        List.length_take_of_le fit] at more
      have broken := ih (bs.take count) made (bs.drop count) (kept - count) (by omega)
      rw [follow_receive_kept fit within, ← both]
      simpa using broken.after (Act.reception (bs.take count))
    · have few : (bs.take kept).length < count := by
        rw [List.length_take]
        omega
      rw [follow_receive_few few]
      exact ⟨⟨_, _, few, rfl⟩, by simp [Act.came], [], _, _, rfl, List.nil_prefix⟩
  | announce event next ih =>
    have broken := ih made bs kept (by simpa [follow] using more)
    simpa [follow] using broken.after (listener.toList.map (.told · event))
  | deliver dive next ih =>
    have broken := ih _ _ bs kept (by simpa [follow, Act.came] using more)
    simpa [follow, Act.came] using broken.after [.delivered dive]

end Dialogue

structure Script.Supplies (script : Script) (bs : Bytes) : Prop where
  line : ∃ times, script.tokens = Token.line bs times
  willing : script.Willing

theorem Script.Supplies.data {script : Script} {bs : Bytes} (supplies : script.Supplies bs) :
    script.data = bs := by
  obtain ⟨times, line⟩ := supplies.line
  rw [Script.data, line, Token.data_line]

theorem Script.unread_queue (script : Script) (supplies : List Supply) :
    script.unread ≤ (script.queue supplies).unread := by
  rw [unread_eq_length_data, unread_eq_length_data, data, data, tokens_queue, Token.data_append,
    List.length_append]
  exact Nat.le_add_right _ _

theorem Dialogue.run_consumed {α : Type} (d : Dialogue α) (listener : Option String)
    (receiver : Receiver) (made : List Delivery) (script : Script) :
    let run := d.run listener receiver made script
    script.unread - run.stream.unread = (Act.heard (acts script.data run.trace)).length := by
  intro run
  have held : script.data = Act.heard (acts script.data run.trace) ++ run.stream.data :=
    d.run_heard listener receiver made script
  have length := congrArg List.length held
  rw [List.length_append] at length
  rw [Script.unread_eq_length_data, Script.unread_eq_length_data]
  omega

namespace Report

def consumed (script : Script) (report : Report) : Nat := script.unread - report.unread

/-- A step that does not notice that its script was cut short: nothing differs but the calls that
one transfer took. -/
structure Uncut (whole cut : Script) (full short : Report) : Prop where
  result : short.result = full.result
  acts : DiveLink.acts cut.data short.trace = DiveLink.acts whole.data full.trace
  consumed : short.consumed cut = full.consumed whole

/-- A step that was ended by a cut behind `kept` bytes, and that did nothing that it does not do on
the whole script. -/
structure Broken (whole cut : Script) (kept : Nat) (full short : Report) : Prop where
  result : ∃ expected transferred, transferred < expected ∧
    short.result = .error (.timeout expected transferred)
  consumed : short.consumed cut = kept
  /-- All but the wait for more is as on the whole script. -/
  acts : ∃ before due got,
    DiveLink.acts cut.data short.trace = before ++ [.received due got false] ∧
      before <+: DiveLink.acts whole.data full.trace
  effects : short.trace.flatMap Observation.effects <+: full.trace.flatMap Observation.effects
  dives : short.trace.filterMap Observation.delivery? <+: full.trace.filterMap Observation.delivery?

end Report

namespace Session

theorem converse_cut {α : Type} (receiver : Receiver) (dialogue : Dialogue α)
    (value : α → Nat → Value) (device : Device) {whole cut : Script} {bs : Bytes} {kept : Nat}
    (supplied : whole.Supplies bs) (cutOff : cut.Supplies (bs.take kept)) :
    let full := (converse receiver dialogue value ⟨device, whole⟩).1
    let short := (converse receiver dialogue value ⟨device, cut⟩).1
    (full.consumed whole ≤ kept → Report.Uncut whole cut full short) ∧
      (kept < full.consumed whole → Report.Broken whole cut kept full short) := by
  intro full short
  have first := dialogue.run_follows device.listener receiver [] supplied.willing
  have second := dialogue.run_follows device.listener receiver [] cutOff.willing
  have consumed : full.consumed whole = _ :=
    dialogue.run_consumed device.listener receiver [] whole
  have consumed' : short.consumed cut = _ :=
    dialogue.run_consumed device.listener receiver [] cut
  obtain ⟨times, line⟩ := supplied.line
  obtain ⟨times', line'⟩ := cutOff.line
  rw [line] at first
  rw [line'] at second
  rw [first.acts] at consumed
  rw [second.acts] at consumed'
  constructor
  · intro enough
    obtain ⟨result, alike⟩ := dialogue.follow_uncut [] bs kept times times' (consumed ▸ enough)
    have same := second.acts.trans (alike.trans first.acts.symm)
    have dives := congrArg (List.length ∘ Act.deliveries) same
    simp only [Function.comp_apply, Act.deliveries_acts, ← Observation.countP_isDive] at dives
    refine ⟨?_, same, by rw [consumed, consumed', alike]⟩
    simp only [short, full, converse, report, Device.perform, dives, second.result, result,
      first.result]
  · intro more
    have broken := dialogue.follow_cut [] bs kept times times' (consumed ▸ more)
    obtain ⟨expected, transferred, less, ended⟩ := broken.result
    obtain ⟨before, due, got, broke, front⟩ := broken.acts
    have inside : kept ≤ bs.length := by
      have held := supplied.data ▸ whole.unread_eq_length_data
      simp only [Report.consumed] at more
      omega
    have seen : DiveLink.acts whole.data full.trace = _ := first.acts
    have seen' : DiveLink.acts cut.data short.trace = _ := second.acts.trans broke
    rw [← seen] at front
    constructor
    case result =>
      refine ⟨expected, transferred, less, ?_⟩
      simp only [short, converse, report, Device.perform, second.result, ended, Except.map]
    case consumed => rw [consumed', broken.heard, List.length_take_of_le inside]
    case acts => exact ⟨before, due, got, seen', front⟩
    case effects =>
      rw [← Act.effects_acts cut.data, ← Act.effects_acts whole.data, seen']
      simpa [Act.effects, Act.went, Act.observation?] using front.flatMap Act.effects
    case dives =>
      rw [← Act.deliveries_acts cut.data, ← Act.deliveries_acts whole.data, seen']
      have first : Act.deliveries before <+: Act.deliveries (DiveLink.acts whole.data full.trace) :=
        front.filterMap Act.delivery?
      simpa [Act.delivery?] using first

theorem idle_cut {whole cut : Script} {kept : Nat} {full short : Report}
    (result : short.result = full.result) (trace : full.trace = []) (trace' : short.trace = [])
    (unread : whole.unread ≤ full.unread) (unread' : cut.unread ≤ short.unread) :
    (full.consumed whole ≤ kept → Report.Uncut whole cut full short) ∧
      (kept < full.consumed whole → Report.Broken whole cut kept full short) := by
  have none : full.consumed whole = 0 := Nat.sub_eq_zero_of_le unread
  have none' : short.consumed cut = 0 := Nat.sub_eq_zero_of_le unread'
  constructor
  · intro _
    exact ⟨result, by rw [trace, trace']; rfl, none'.trans none.symm⟩
  · intro more
    omega

/-- A step on a script that supplies some bytes, beside the same step where only the first `kept` of
them come: as long as it does not need the others it does not notice. If it does need them, it ends
with a timeout after all bytes that came, and up to there it did and delivered what it does on the
whole script. -/
theorem step_truncated (device : Device) (step : Step) {whole cut : Script} {bs : Bytes}
    {kept : Nat} (supplied : whole.Supplies bs) (cutOff : cut.Supplies (bs.take kept)) :
    let full := (Session.step step ⟨device, whole⟩).1
    let short := (Session.step step ⟨device, cut⟩).1
    (full.consumed whole ≤ kept → Report.Uncut whole cut full short) ∧
      (kept < full.consumed whole → Report.Broken whole cut kept full short) := by
  cases step with
  | identify => exact converse_cut _ _ _ device supplied cutOff
  | downloadNew receiver => exact converse_cut _ _ _ device supplied cutOff
  | setClock time => exact converse_cut _ _ _ device supplied cutOff
  | leave => exact converse_cut _ _ _ device supplied cutOff
  | queue supplies =>
    exact idle_cut rfl rfl rfl (whole.unread_queue supplies) (cut.unread_queue supplies)
  | setFingerprint data =>
    simp only [Session.step]
    cases device.setFingerprint data <;> exact idle_cut rfl rfl rfl (Nat.le_refl _) (Nat.le_refl _)
  | listen | renew | describe => exact idle_cut rfl rfl rfl (Nat.le_refl _) (Nat.le_refl _)

theorem step_truncated_identify :
    let answer := Packet.wire 0 [1, 2, 3, 4, 1, 200, 0, 0, 0, 0, 0]
    let whole : Script := ⟨[.bytes (answer.take 5), .bytes (answer.drop 5 ++ [0xFF]), .silence],
      [.atMost 2], some 4, []⟩
    let cut (kept : Nat) : Script := ⟨[.bytes ((answer ++ [0xFF]).take kept)], [], none, []⟩
    let full := (Session.step .identify ⟨.fresh, whole⟩).1
    let short (kept : Nat) := (Session.step .identify ⟨.fresh, cut kept⟩).1
    full.consumed whole = 19 ∧ Report.Uncut whole (cut 19) full (short 19) ∧
      Report.Broken whole (cut 7) 7 full (short 7) := by
  intro answer whole cut full short
  have all : full.consumed whole = 19 := by decide +kernel
  have supplied : whole.Supplies (answer ++ [0xFF]) := ⟨⟨1, by decide +kernel⟩, by decide⟩
  have cutOff (kept : Nat) : (cut kept).Supplies ((answer ++ [0xFF]).take kept) := by
    refine ⟨⟨0, ?_⟩, ?_⟩
    · simp [cut, Script.tokens, Supply.tokens, Token.line]
    · exact ⟨by simp [cut], by simp [cut]⟩
  have uncut := step_truncated .fresh .identify supplied (cutOff 19)
  have broken := step_truncated .fresh .identify supplied (cutOff 7)
  exact ⟨all, uncut.1 (by rw [all]), broken.2 (by rw [all]; decide)⟩

end Session

end DiveLink
