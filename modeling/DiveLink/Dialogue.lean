import DiveLink.Event

/-! Dialogues: what is said to the device, what is expected from it and what is told to the
caller, in order, apart from the stream that carries it. -/

set_option autoImplicit false

namespace DiveLink

inductive Dialogue (α : Type) where
  | done (a : α)
  | refuse (why : Refusal)
  | pause (ms : Nat) (next : Dialogue α)
  | send (bs : Bytes) (next : Dialogue α)
  | receive (count : Nat) (next : Bytes → Dialogue α)
  | announce (event : Event) (next : Dialogue α)
  | deliver (dive : Delivery) (next : DiveControl → Dialogue α)

namespace Dialogue
variable {α β γ : Type}

def bind : Dialogue α → (α → Dialogue β) → Dialogue β
  | done a, f => f a
  | refuse why, _ => refuse why
  | pause ms next, f => pause ms (next.bind f)
  | send bs next, f => send bs (next.bind f)
  | receive count next, f => receive count fun bs => (next bs).bind f
  | announce event next, f => announce event (next.bind f)
  | deliver dive next, f => deliver dive fun reply => (next reply).bind f

instance : Monad Dialogue where
  pure := done
  bind := bind

def ofExcept : Except Refusal α → Dialogue α
  | .ok a => done a
  | .error why => refuse why

@[simp] theorem pure_eq (a : α) : (pure a : Dialogue α) = done a := rfl
@[simp] theorem done_bind (a : α) (f : α → Dialogue β) : (done a >>= f) = f a := rfl
@[simp] theorem refuse_bind (why : Refusal) (f : α → Dialogue β) :
    (refuse why >>= f) = refuse why := rfl
@[simp] theorem pause_bind (ms : Nat) (next : Dialogue α) (f : α → Dialogue β) :
    (pause ms next >>= f) = pause ms (next >>= f) := rfl
@[simp] theorem send_bind (bs : Bytes) (next : Dialogue α) (f : α → Dialogue β) :
    (send bs next >>= f) = send bs (next >>= f) := rfl
@[simp] theorem receive_bind (count : Nat) (next : Bytes → Dialogue α) (f : α → Dialogue β) :
    (receive count next >>= f) = receive count fun bs => next bs >>= f := rfl
@[simp] theorem announce_bind (event : Event) (next : Dialogue α) (f : α → Dialogue β) :
    (announce event next >>= f) = announce event (next >>= f) := rfl
@[simp] theorem deliver_bind (dive : Delivery) (next : DiveControl → Dialogue α)
    (f : α → Dialogue β) :
    (deliver dive next >>= f) = deliver dive fun reply => next reply >>= f := rfl

theorem bind_assoc (d : Dialogue α) (f : α → Dialogue β) (g : β → Dialogue γ) :
    (d >>= f) >>= g = d >>= fun a => f a >>= g := by
  induction d with
  | done a => rfl
  | refuse why => rfl
  | pause ms next ih => simp [ih]
  | send bs next ih => simp [ih]
  | receive count next ih => simp [ih]
  | announce event next ih => simp [ih]
  | deliver dive next ih => simp [ih]

end Dialogue

end DiveLink
