import DiveLink.Proofs.Acts

set_option autoImplicit false

namespace DiveLink

structure Passage (α : Type) where
  result : Except (Failure ScriptCall) α
  acts : List Act
  left : List Token

namespace Passage
variable {α β : Type}

def after (before : List Act) (p : Passage α) : Passage α := { p with acts := before ++ p.acts }

@[simp] theorem after_result (before : List Act) (p : Passage α) :
    (p.after before).result = p.result := rfl

@[simp] theorem after_acts (before : List Act) (p : Passage α) :
    (p.after before).acts = before ++ p.acts := rfl

@[simp] theorem after_left (before : List Act) (p : Passage α) :
    (p.after before).left = p.left := rfl

@[simp] theorem after_nil (p : Passage α) : p.after [] = p := rfl

@[simp] theorem after_after (first second : List Act) (p : Passage α) :
    (p.after second).after first = p.after (first ++ second) := by
  simp [after]

end Passage

namespace Dialogue
variable {α β : Type} (listener : Option String) (receiver : Receiver)

/-- A dialogue with a stream that takes everything and hands over these tokens. -/
def follow : Dialogue α → List Delivery → List Token → Passage α
  | done a, _, tokens => ⟨.ok a, [], tokens⟩
  | refuse why, _, tokens => ⟨.error (.refused why), [], tokens⟩
  | pause ms next, made, tokens => (next.follow made tokens).after [.paused ms]
  | send bs next, made, tokens => (next.follow made tokens).after (Act.sending bs)
  | receive count next, made, tokens =>
    let receipt := Token.receive count tokens
    if receipt.bytes.length = count then
      ((next receipt.bytes).follow made receipt.left).after (Act.reception receipt.bytes)
    else
      ⟨.error (shortfall .read receipt.failed count receipt.bytes.length),
        [.received count receipt.bytes receipt.failed], receipt.left⟩
  | announce event next, made, tokens =>
    (next.follow made tokens).after (listener.toList.map (.told · event))
  | deliver dive next, made, tokens =>
    ((next (receiver (made ++ [dive]))).follow (made ++ [dive]) tokens).after [.delivered dive]

variable {listener receiver}

@[simp] theorem ofExcept_ok (a : α) : Dialogue.ofExcept (.ok a) = done a := rfl

@[simp] theorem ofExcept_error (why : Refusal) :
    Dialogue.ofExcept (.error why : Except Refusal α) = refuse why := rfl

theorem bind_done (d : Dialogue α) : (d >>= done) = d := by
  induction d with
  | done a => rfl
  | refuse why => rfl
  | pause ms next ih => simp [ih]
  | send bs next ih => simp [ih]
  | receive count next ih => simp [ih]
  | announce event next ih => simp [ih]
  | deliver dive next ih => simp [ih]

theorem follow_receive {bs : Bytes} {count : Nat} (whole : bs.length = count)
    (next : Bytes → Dialogue α) (made : List Delivery) (later : List Token) :
    (receive count next).follow listener receiver made (bs.map .byte ++ later) =
      ((next bs).follow listener receiver made later).after (Act.reception bs) := by
  subst whole
  simp [follow, Token.receive_all]

end Dialogue

/-- What a dialogue may send, announce and deliver. -/
structure Limits where
  sends : Bytes → Prop
  tells : Event → Prop
  hands : Delivery → Prop

namespace Limits

def listening : Limits := ⟨fun _ => False, fun _ => True, fun _ => True⟩

def undelivering : Limits := ⟨fun _ => True, fun _ => True, fun _ => False⟩

def plain : Limits := ⟨fun bs => bs[4]? ≠ some CommandCode.dive, fun _ => True, fun _ => False⟩

def telling (allowed : Event → Prop) : Limits := ⟨fun _ => True, allowed, fun _ => True⟩

def Allows (limits : Limits) : Act → Prop
  | .sent bs _ _ => limits.sends bs
  | .told _ event => limits.tells event
  | .delivered dive => limits.hands dive
  | .asked .. | .paused _ | .received .. => True

end Limits

namespace Dialogue
variable {α β : Type} {limits : Limits}

/-- Whatever the answers, nothing is done but what the limits allow. -/
def Keeps (limits : Limits) : Dialogue α → Prop
  | done _ | refuse _ => True
  | pause _ next => next.Keeps limits
  | send bs next => limits.sends bs ∧ next.Keeps limits
  | receive _ next => ∀ bs, (next bs).Keeps limits
  | announce event next => limits.tells event ∧ next.Keeps limits
  | deliver dive next => limits.hands dive ∧ ∀ reply, (next reply).Keeps limits

theorem Keeps.bind {d : Dialogue α} {f : α → Dialogue β} (first : d.Keeps limits)
    (second : ∀ a, (f a).Keeps limits) : (d >>= f).Keeps limits := by
  induction d with
  | done a => exact second a
  | refuse why => trivial
  | pause ms next ih => exact ih first
  | send bs next ih => exact ⟨first.1, ih first.2⟩
  | receive count next ih => exact fun bs => ih bs (first bs)
  | announce event next ih => exact ⟨first.1, ih first.2⟩
  | deliver dive next ih => exact ⟨first.1, fun reply => ih reply (first.2 reply)⟩

theorem keeps_ofExcept (value : Except Refusal α) : (Dialogue.ofExcept value).Keeps limits := by
  cases value <;> trivial

end Dialogue

/-- A run that agrees with a passage, in every respect that does not depend on how bytes were
cut into calls. -/
structure Run.Follows {α : Type} (run : Run Script ScriptCall α) (script : Script)
    (p : Passage α) : Prop where
  result : run.result = p.result
  acts : acts script.data run.trace = p.acts
  left : run.stream.tokens = p.left
  willing : script.Willing → run.stream.Willing

/-- Whether a script takes bytes matters only to a dialogue that sends some. -/
theorem Dialogue.run_follows_of {α : Type} (d : Dialogue α) (listener : Option String)
    (receiver : Receiver) (made : List Delivery) {script : Script}
    (hands : script.maxRead ≠ some 0) (takes : script.Willing ∨ d.Keeps .listening) :
    (d.run listener receiver made script).Follows script
      (d.follow listener receiver made script.tokens) := by
  induction d generalizing made script with
  | done a => exact ⟨rfl, rfl, rfl, id⟩
  | refuse why => exact ⟨rfl, rfl, rfl, id⟩
  | pause ms next ih =>
    have h := ih made hands takes
    refine ⟨h.result, ?_, h.left, h.willing⟩
    rw [follow, Passage.after_acts, ← h.acts]
    rfl
  | send bs next ih =>
    rcases takes with willing | listening
    · obtain ⟨taken, failed, h⟩ := Run.writeAll_sends bs script
      obtain ⟨rfl, still⟩ := h.willing willing
      have tokens : (Run.writeAll bs script).stream.tokens = script.tokens := by
        simp only [Script.tokens, h.incoming]
      have data : (Run.writeAll bs script).stream.data = script.data := by
        simp only [Script.data, tokens]
      have rest := ih made still.hands (.inl still)
      rw [tokens] at rest
      rw [Dialogue.run, Run.andThen_ok (h.result.trans (if_pos rfl))]
      refine ⟨rest.result, ?_, rest.left, fun _ => rest.willing still⟩
      rw [follow, Passage.after_acts, ← rest.acts, data]
      exact h.acts_whole script.data _
    · exact listening.1.elim
  | receive count next ih =>
    obtain ⟨got, failed, h⟩ := Run.readExact_receives count script
    have still (willing : script.Willing) : (Run.readExact count script).stream.Willing :=
      ⟨h.maxRead ▸ willing.hands, h.outgoing ▸ willing.takes⟩
    have tokens := h.tokens hands
    rw [Dialogue.run, follow, tokens]
    by_cases whole : got.length = count
    · have rest := ih got made (h.maxRead ▸ hands) (takes.imp still fun listening => listening got)
      rw [Run.andThen_ok (h.result.trans (if_pos whole)), if_pos whole]
      refine ⟨rest.result, ?_, rest.left, rest.willing ∘ still⟩
      rw [Passage.after_acts, ← rest.acts]
      exact h.acts_whole whole _
    · have due := h.fit
      rw [Run.andThen_error (h.result.trans (if_neg whole)), if_neg whole]
      refine ⟨by simp, ?_, rfl, still⟩
      have short := h.acts (by omega) []
      rwa [List.append_nil] at short
  | announce event next ih =>
    have h := ih made hands (takes.imp_right fun listening => listening.2)
    refine ⟨h.result, ?_, h.left, h.willing⟩
    rw [follow, Passage.after_acts, ← h.acts]
    cases listener <;> rfl
  | deliver dive next ih =>
    have h := ih (receiver (made ++ [dive])) (made ++ [dive]) hands
      (takes.imp_right fun listening => listening.2 (receiver (made ++ [dive])))
    refine ⟨h.result, ?_, h.left, h.willing⟩
    rw [follow, Passage.after_acts, ← h.acts]
    rfl

theorem Dialogue.run_follows {α : Type} (d : Dialogue α) (listener : Option String)
    (receiver : Receiver) (made : List Delivery) {script : Script} (willing : script.Willing) :
    (d.run listener receiver made script).Follows script
      (d.follow listener receiver made script.tokens) :=
  d.run_follows_of listener receiver made willing.hands (.inl willing)

theorem Dialogue.run_heard {α : Type} (d : Dialogue α) (listener : Option String)
    (receiver : Receiver) (made : List Delivery) (script : Script) :
    script.data = Act.heard (DiveLink.acts script.data (d.run listener receiver made script).trace) ++
      (d.run listener receiver made script).stream.data := by
  induction d generalizing made script with
  | done a => rfl
  | refuse why => rfl
  | pause ms next ih => exact ih made script
  | send bs next ih =>
    obtain ⟨taken, failed, h⟩ := Run.writeAll_sends bs script
    have data : (Run.writeAll bs script).stream.data = script.data := by
      simp only [Script.data, Script.tokens, h.incoming]
    rw [Dialogue.run]
    by_cases whole : taken = bs.length
    · subst whole
      rw [Run.andThen_ok (h.result.trans (if_pos rfl)), Run.after, h.acts_whole, Act.heard_append,
        Act.heard_sending, List.nil_append, ← data]
      exact ih made _
    · have any : bs ≠ [] := fun none => whole (by simpa [none] using h.fit)
      have seen := h.acts any script.data []
      rw [List.append_nil] at seen
      rw [Run.andThen_error (h.result.trans (if_neg whole)), seen, data]
      rfl
  | receive count next ih =>
    obtain ⟨got, failed, h⟩ := Run.readExact_receives count script
    rw [Dialogue.run]
    by_cases whole : got.length = count
    · rw [Run.andThen_ok (h.result.trans (if_pos whole)), Run.after, h.acts_whole whole,
        Act.heard_append, Act.heard_reception, List.append_assoc, ← ih got made]
      exact h.data
    · have due := h.fit
      have seen := h.acts (by omega) []
      rw [List.append_nil] at seen
      rw [Run.andThen_error (h.result.trans (if_neg whole)), seen]
      simpa [DiveLink.acts, Act.came] using h.data
  | announce event next ih =>
    have rest := ih made script
    cases listener <;> exact rest
  | deliver dive next ih => exact ih _ _ script

end DiveLink
