import Mathlib.Data.Finset.Card
import Mathlib.Data.Finset.Filter
import Mathlib.Data.Finset.Range
import Mathlib.Data.Nat.Bitwise
import DiveLink.Bytes

/-! The bits of a byte string in the order in which a checksum takes them: the bytes from the first
to the last, and each byte from its most significant bit down. -/

set_option autoImplicit false

namespace DiveLink

theorem eq_of_bits {width m n : Nat} (small : m < 2 ^ width) (small' : n < 2 ^ width)
    (same : ∀ i < width, m.testBit i = n.testBit i) : m = n := by
  rw [← Nat.mod_eq_of_lt small, ← Nat.mod_eq_of_lt small', ← Nat.ofBits_testBit,
    ← Nat.ofBits_testBit]
  congr 1
  funext i
  exact same i i.isLt

namespace Bytes

/-- The bit at a place. There are none behind the last byte. -/
def bit (bs : Bytes) (place : Nat) : Bool :=
  bs[place / 8]?.any fun b => b.toNat.testBit (7 - place % 8)

def differences (a b : Bytes) : Finset Nat :=
  {place ∈ Finset.range (8 * a.length) | a.bit place ≠ b.bit place}

def invert (places : Finset Nat) (bs : Bytes) : Bytes :=
  bs.mapIdx fun i b => b ^^^ .ofNat (Nat.ofBits fun j : Fin 8 => decide (8 * i + (7 - j) ∈ places))

variable {a b bs : Bytes} {count place : Nat}

theorem bit_cons_first (byte : UInt8) (later : Bytes) (first : place < 8) :
    bit (byte :: later) place = byte.toNat.testBit (7 - place) := by
  simp [bit, Nat.div_eq_of_lt first, Nat.mod_eq_of_lt first]

theorem bit_cons_later (byte : UInt8) (later : Bytes) (place : Nat) :
    bit (byte :: later) (8 + place) = later.bit place := by
  simp [bit, Nat.add_div_left]

theorem bit_drop (count place : Nat) (bs : Bytes) :
    bit (bs.drop count) place = bs.bit (8 * count + place) := by
  have byte : (8 * count + place) / 8 = count + place / 8 := by omega
  have inside : (8 * count + place) % 8 = place % 8 := by omega
  simp [bit, byte, inside]

theorem bit_take (inside : place < 8 * count) : bit (bs.take count) place = bs.bit place := by
  have byte : place / 8 < count := by omega
  simp [bit, List.getElem?_take_of_lt byte]

theorem bit_append_front (front rest : Bytes) (inside : place < 8 * front.length) :
    bit (front ++ rest) place = front.bit place := by
  have byte : place / 8 < front.length := by omega
  simp [bit, List.getElem?_append_left byte]

theorem bit_append_rest (front rest : Bytes) (place : Nat) :
    bit (front ++ rest) (8 * front.length + place) = rest.bit place := by
  rw [← bit_drop, List.drop_left]

theorem mem_differences :
    place ∈ a.differences b ↔ place < 8 * a.length ∧ a.bit place ≠ b.bit place := by
  simp [differences]

theorem byte_ext {x y : UInt8}
    (same : ∀ j < 8, x.toNat.testBit (7 - j) = y.toNat.testBit (7 - j)) : x = y := by
  apply UInt8.toNat.inj
  apply eq_of_bits x.toNat_lt y.toNat_lt
  intro i inside
  have h := same (7 - i) (by omega)
  rwa [Nat.sub_sub_self (by omega)] at h

theorem getElem?_eq {i : Nat} (length : a.length = b.length)
    (elsewhere : ∀ place ∈ a.differences b, place / 8 ≠ i) : a[i]? = b[i]? := by
  by_cases inside : i < a.length
  · rw [List.getElem?_eq_getElem inside, List.getElem?_eq_getElem (length ▸ inside)]
    congr 1
    apply byte_ext
    intro j small
    have byte : (8 * i + j) / 8 = i := by omega
    have rest : (8 * i + j) % 8 = j := by omega
    have same : a.bit (8 * i + j) = b.bit (8 * i + j) := by
      by_contra differ
      exact elsewhere _ (mem_differences.2 ⟨by omega, differ⟩) byte
    simpa [bit, byte, rest, inside, length ▸ inside] using same
  · simp [inside, length ▸ inside]

theorem eq_of_differences (length : a.length = b.length) (none : a.differences b = ∅) : a = b := by
  apply List.ext_getElem?
  intro i
  simp [getElem?_eq length, none]

theorem take_eq (length : a.length = b.length)
    (behind : ∀ place ∈ a.differences b, 8 * count ≤ place) : a.take count = b.take count := by
  apply List.ext_getElem?
  intro i
  by_cases inside : i < count
  · rw [List.getElem?_take_of_lt inside, List.getElem?_take_of_lt inside]
    apply getElem?_eq length
    intro place mem
    have := behind place mem
    omega
  · simp [inside]

theorem differences_append (rest : Bytes) (length : a.length = b.length) :
    differences (a ++ rest) (b ++ rest) = a.differences b := by
  ext place
  rw [mem_differences, mem_differences]
  by_cases front : place < 8 * a.length
  · rw [bit_append_front a rest front, bit_append_front b rest (length ▸ front), List.length_append]
    have within : place < 8 * (a.length + rest.length) := by omega
    simp [front, within]
  · obtain ⟨more, rfl⟩ := Nat.exists_eq_add_of_le (Nat.not_lt.1 front)
    have same := bit_append_rest b rest more
    rw [← length] at same
    simp [bit_append_rest a rest more, same]

theorem mem_differences_cut {start : Nat} (inside : start + count ≤ a.length) :
    place ∈ differences ((a.drop start).take count) ((b.drop start).take count) ↔
      place < 8 * count ∧ 8 * start + place ∈ a.differences b := by
  have length : ((a.drop start).take count).length = count := by
    rw [List.length_take, List.length_drop]
    omega
  rw [mem_differences, mem_differences, length]
  constructor
  · rintro ⟨within, differ⟩
    rw [bit_take within, bit_take within, bit_drop, bit_drop] at differ
    exact ⟨within, by omega, differ⟩
  · rintro ⟨within, -, differ⟩
    rw [bit_take within, bit_take within, bit_drop, bit_drop]
    exact ⟨within, differ⟩

theorem card_differences_cut {start : Nat} (inside : start + count ≤ a.length)
    (all : ∀ place ∈ a.differences b, 8 * start ≤ place ∧ place < 8 * (start + count)) :
    (differences ((a.drop start).take count) ((b.drop start).take count)).card =
      (a.differences b).card := by
  apply Finset.card_nbij' (8 * start + ·) (· - 8 * start)
  · intro place mem
    exact ((mem_differences_cut inside).1 mem).2
  · intro place mem
    have bounds := all place mem
    have back : 8 * start + (place - 8 * start) = place := by omega
    have within : place - 8 * start < 8 * count := by omega
    exact (mem_differences_cut inside).2 ⟨within, back.symm ▸ mem⟩
  · intro place _
    simp
  · intro place mem
    have bounds := all place mem
    simp only
    omega

@[simp] theorem length_invert (places : Finset Nat) (bs : Bytes) :
    (bs.invert places).length = bs.length := by
  simp [invert]

theorem bit_invert (places : Finset Nat) (inside : place < 8 * bs.length) :
    (bs.invert places).bit place = (bs.bit place ^^ decide (place ∈ places)) := by
  have byte : place / 8 < bs.length := by omega
  have back : 8 * (place / 8) + (7 - (7 - place % 8)) = place := by omega
  have small : 7 - place % 8 < 8 := by omega
  have mask (f : Fin 8 → Bool) : Nat.ofBits f % 256 = Nat.ofBits f :=
    Nat.mod_eq_of_lt (Nat.ofBits_lt_two_pow f)
  simp [bit, invert, byte, Nat.testBit_xor, mask, small, back]

theorem differences_invert {places : Finset Nat}
    (inside : ∀ place ∈ places, place < 8 * bs.length) :
    bs.differences (bs.invert places) = places := by
  ext place
  rw [mem_differences]
  constructor
  · rintro ⟨within, differ⟩
    rw [bit_invert places within] at differ
    by_contra other
    simp [other] at differ
  · intro mem
    have within := inside place mem
    refine ⟨within, ?_⟩
    rw [bit_invert places within]
    simp [mem]

end Bytes

end DiveLink
