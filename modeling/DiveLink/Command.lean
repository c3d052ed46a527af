import DiveLink.DateTime

set_option autoImplicit false

namespace DiveLink

namespace CommandCode

def version : UInt8 := 0x00
def setTime : UInt8 := 0x13
def leave : UInt8 := 0x1D
def logbook : UInt8 := 0x21
def dive : UInt8 := 0x22
def startDateLogbook : UInt8 := 0x23

end CommandCode

inductive Command where
  | version
  | setTime (time : DateTime)
  | leave
  /-- Asks for the logbook; the code depends on the device family. -/
  | logbook (code : UInt8)
  /-- Asks for one dive by the two bytes of its number. -/
  | dive (low high : UInt8)
  deriving DecidableEq, Repr

namespace Command

def code : Command → UInt8
  | version => CommandCode.version
  | setTime _ => CommandCode.setTime
  | leave => CommandCode.leave
  | logbook code => code
  | dive .. => CommandCode.dive

def payload : Command → Bytes
  | setTime time => time.wire
  | dive low high => [low, high]
  | version | leave | logbook _ => []

def isBulk : Command → Bool
  | logbook _ | dive .. => true
  | version | setTime _ | leave => false

theorem length_payload_le (c : Command) : c.payload.length ≤ 7 := by
  cases c <;> simp [payload, DateTime.length_wire]

end Command

end DiveLink
