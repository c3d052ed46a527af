import DiveLink.Bytes

set_option autoImplicit false

namespace DiveLink

structure DateTime where
  year : UInt16
  month : UInt8
  day : UInt8
  hour : UInt8
  minute : UInt8
  second : UInt8
  deriving DecidableEq, Repr

/-- The year takes two bytes and each other field one; no field is checked against a calendar. -/
def DateTime.wire (t : DateTime) : Bytes :=
  wordBytes t.year ++ [t.month, t.day, t.hour, t.minute, t.second]

theorem DateTime.length_wire (t : DateTime) : t.wire.length = 7 := rfl

end DiveLink
