import DiveLink.Refusal

/-! The 16-bit cyclic redundancy check of packets and chunks: the remainder of the data,
most significant bit first, modulo x¹⁶ + x¹² + x⁵ + 1, stored with its low byte first. -/

set_option autoImplicit false

namespace DiveLink.Checksum

def generator : UInt16 := 0x1021

def initial : UInt16 := 0

def finalMask : UInt16 := 0

/-- One more bit of the dividend: a leading term that leaves is replaced by the generator. -/
def shift (remainder : UInt16) : UInt16 :=
  if remainder &&& 0x8000 = 0 then remainder <<< 1 else (remainder <<< 1) ^^^ generator

def shifts : Nat → UInt16 → UInt16
  | 0, remainder => remainder
  | n + 1, remainder => shifts n (shift remainder)

def absorb (remainder : UInt16) (b : UInt8) : UInt16 :=
  shifts 8 (remainder ^^^ (b.toUInt16 <<< 8))

def compute (bs : Bytes) : UInt16 := bs.foldl absorb initial ^^^ finalMask

/-- The nine ASCII digits from 1 to 9, by whose checksum this check is known. -/
example : compute [0x31, 0x32, 0x33, 0x34, 0x35, 0x36, 0x37, 0x38, 0x39] = 0x31C3 := by
  decide +kernel

def read : Bytes → Except Refusal UInt16
  | [low, high] => .ok (word low high)
  | _ => .error .outOfRange

theorem read_wordBytes (w : UInt16) : read (wordBytes w) = .ok w := by
  have h := word?_wordBytes_append w []
  simp only [wordBytes, List.cons_append, List.nil_append, Bytes.word?, Option.some.injEq] at h
  simp only [wordBytes, read, h]

def verify (data stored : Bytes) : Except Refusal Unit := do
  let expected ← read stored
  let calculated := compute data
  if expected = calculated then .ok () else .error (.checksum expected calculated)

end DiveLink.Checksum
