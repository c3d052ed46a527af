import DiveLink.Refusal

/-! Fingerprints: six bytes of a logbook entry that tell one dive from another. A device
keeps the fingerprint of the newest dive already downloaded; six zeros stand for none. -/

set_option autoImplicit false

namespace DiveLink

structure Fingerprint where
  bytes : Bytes
  length_bytes : bytes.length = 6
  deriving DecidableEq

namespace Fingerprint

def size : Nat := 6

def zero : Fingerprint := ⟨[0, 0, 0, 0, 0, 0], rfl⟩

def select (data : Bytes) : Except Refusal Fingerprint :=
  if h : data.length = 6 then .ok ⟨data, h⟩
  else if data = [] then .ok zero
  else .error (.fingerprintSize data.length)

end Fingerprint

end DiveLink
