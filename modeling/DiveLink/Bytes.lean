set_option autoImplicit false

namespace DiveLink

abbrev Bytes := List UInt8

/-- The bytes at the positions from `start` up to, not including, `stop`;
nothing unless all of them are there. -/
def Bytes.slice? (start stop : Nat) (bs : Bytes) : Option Bytes :=
  if start ≤ stop ∧ stop ≤ bs.length then some (bs.extract start stop) else none

/-- The number of two bytes, the low one first. -/
def word (low high : UInt8) : UInt16 := .ofNat (low.toNat + 256 * high.toNat)

def wordBytes (w : UInt16) : Bytes := [.ofNat w.toNat, .ofNat (w.toNat / 256)]

def doubleWord (a b c d : UInt8) : UInt32 :=
  .ofNat (a.toNat + 256 * (b.toNat + 256 * (c.toNat + 256 * d.toNat)))

def Bytes.word? : Bytes → Option UInt16
  | low :: high :: _ => some (word low high)
  | _ => none

theorem Bytes.slice?_eq_some_iff {start stop : Nat} {bs cut : Bytes} :
    bs.slice? start stop = some cut ↔
      start ≤ stop ∧ stop ≤ bs.length ∧ cut = (bs.drop start).take (stop - start) := by
  unfold Bytes.slice?
  rw [List.extract_eq_take_drop]
  constructor
  · intro h
    split at h
    · next hb => exact ⟨hb.1, hb.2, (Option.some.inj h).symm⟩
    · cases h
  · rintro ⟨hstart, hstop, rfl⟩
    rw [if_pos ⟨hstart, hstop⟩]

theorem Bytes.length_slice? {start stop : Nat} {bs cut : Bytes}
    (h : bs.slice? start stop = some cut) : cut.length = stop - start := by
  obtain ⟨hstart, hstop, rfl⟩ := Bytes.slice?_eq_some_iff.1 h
  rw [List.length_take, List.length_drop]
  omega

theorem Bytes.slice?_append (front cut rest : Bytes) :
    (front ++ cut ++ rest).slice? front.length (front.length + cut.length) = some cut := by
  simp [Bytes.slice?, List.extract_eq_take_drop]

@[simp] theorem length_wordBytes (w : UInt16) : (wordBytes w).length = 2 := rfl

@[simp] theorem word?_wordBytes_append (w : UInt16) (rest : Bytes) :
    Bytes.word? (wordBytes w ++ rest) = some w := by
  simp only [wordBytes, List.cons_append, Bytes.word?, word, Option.some.injEq]
  apply UInt16.toNat.inj
  have := w.toNat_lt
  simp only [UInt16.toNat_ofNat', UInt8.toNat_ofNat']
  omega

end DiveLink
