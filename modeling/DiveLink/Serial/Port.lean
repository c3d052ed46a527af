import DiveLink.Line

set_option autoImplicit false

namespace DiveLink.Serial

inductive IoKind where
  | brokenPipe | interrupted | invalidInput | notFound | other | permissionDenied | timedOut
  | unexpectedEof | wouldBlock
  /-- Any other kind, by its name. -/
  | unlisted (name : String)
  deriving DecidableEq, Repr

structure PortError where
  kind : IoKind
  text : String
  deriving DecidableEq, Repr

instance : ToString PortError := ⟨PortError.text⟩

inductive DataBits where
  | five | six | seven | eight
  deriving DecidableEq, Repr

def DataBits.ofNumber? : UInt8 → Option DataBits
  | 5 => some five
  | 6 => some six
  | 7 => some seven
  | 8 => some eight
  | _ => none

def DataBits.number : DataBits → UInt8
  | five => 5
  | six => 6
  | seven => 7
  | eight => 8

theorem DataBits.ofNumber?_number (d : DataBits) : ofNumber? d.number = some d := by
  cases d <;> rfl

inductive Request where
  | baudRate (rate : UInt32)
  | dataBits (bits : DataBits)
  | parity (parity : Parity)
  | stopBits (bits : StopBits)
  | flowControl (control : FlowControl)
  | timeout (ms : Nat)
  | requestToSend (level : Bool)
  | dataTerminalReady (level : Bool)
  | clear (direction : Direction)
  deriving DecidableEq, Repr

class SerialPort (π : Type) where
  request : Request → π → Except PortError Unit × π
  read : Nat → π → Except PortError Bytes × π
  write : Bytes → π → Except PortError Nat × π

end DiveLink.Serial
