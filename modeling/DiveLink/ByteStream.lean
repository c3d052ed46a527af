import DiveLink.Line

/-! Streams that carry a conversation. A stream may hand over and take any part of what is
asked of it; a part of no bytes means that it waited in vain. -/

set_option autoImplicit false

namespace DiveLink

/-- A line to a device, as functions of its state. A failure leaves a state behind as well. -/
class ByteStream (σ : Type) (ε : outParam Type) where
  control : Control → σ → Except ε Unit × σ
  sleep : Nat → σ → σ
  /-- Hands over at most so many bytes. -/
  read : Nat → σ → Except ε Bytes × σ
  /-- Takes some bytes from the front and says how many. -/
  write : Bytes → σ → Except ε Nat × σ

end DiveLink
