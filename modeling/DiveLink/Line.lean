import DiveLink.Bytes

set_option autoImplicit false

namespace DiveLink

inductive Parity where
  | none | odd | even
  deriving DecidableEq, Repr

inductive StopBits where
  | one | two
  deriving DecidableEq, Repr

inductive FlowControl where
  | none | software | hardware
  deriving DecidableEq, Repr

inductive Direction where
  | input | output | all
  deriving DecidableEq, Repr

structure LineSettings where
  baudRate : UInt32
  dataBits : UInt8
  parity : Parity
  stopBits : StopBits
  flowControl : FlowControl
  deriving DecidableEq, Repr

def LineSettings.device : LineSettings := ⟨115200, 8, .none, .one, .none⟩

inductive Control where
  | configure (settings : LineSettings)
  /-- How long, in milliseconds, a read may wait. -/
  | timeout (ms : Nat)
  | requestToSend (level : Bool)
  | dataTerminalReady (level : Bool)
  | purge (direction : Direction)
  deriving DecidableEq, Repr

namespace Timing

/-- The pause before every packet, in milliseconds: the device drops what comes too early. -/
def beforePacket : Nat := 100

def readTimeout : Nat := 3000

def settling : Nat := 100

end Timing

end DiveLink
