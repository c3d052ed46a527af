/-! Progress of a download: a thousand steps for the logbook and a thousand for each dive. Its
numbers are words, and wrap. -/

set_option autoImplicit false

namespace DiveLink

structure Progress where
  current : UInt32
  /-- Zero until the number of dives is known. -/
  maximum : UInt32
  deriving DecidableEq, Repr

namespace Progress

def steps : Nat := 1000

def start : Progress := ⟨0, 0⟩

/-- The steps done after `received` of `total` bytes, rounded to the nearest. The dividend is kept in
64 bits and the quotient in 32. -/
def step (received total : Nat) : UInt32 :=
  if total = 0 then .ofNat steps
  else .ofNat ((steps * received + total / 2) % UInt64.size / total)

def forDives (current dives : UInt32) : Progress := ⟨current, (dives + 1) * .ofNat steps⟩

def during (p : Progress) (received total : Nat) : Progress :=
  { p with current := p.current + step received total }

end Progress

end DiveLink
