import DiveLink.Identity
import DiveLink.Progress

set_option autoImplicit false

namespace DiveLink

inductive Event where
  | progress (now : Progress)
  /-- The identification block as received. -/
  | vendor (block : Bytes)
  | deviceInfo (info : DeviceInfo)
  deriving DecidableEq, Repr

structure Delivery where
  record : Bytes
  fingerprint : Bytes
  deriving DecidableEq, Repr

inductive DiveControl where
  | more | stop
  deriving DecidableEq, Repr

/-- Answers a delivery, knowing all deliveries so far and this one as the last of them. -/
abbrev Receiver := List Delivery → DiveControl

namespace Receiver

def takesAll : Receiver := fun _ => .more

/-- Has enough after so many dives, at the earliest after the first. -/
def stopsAfter (count : Nat) : Receiver := fun made =>
  if made.length < count then .more else .stop

end Receiver

end DiveLink
