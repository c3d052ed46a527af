import Mathlib.Algebra.BigOperators.Intervals
import Mathlib.Algebra.Polynomial.Eval.Degree
import Mathlib.Data.List.Iterate
import Mathlib.RingTheory.Coprime.Lemmas
import DiveLink.Chunk
import DiveLink.Proofs.PacketFormat
import DiveLink.Proofs.Remainder

/-! Which alterations of data and its stored checksum go unnoticed: those whose places, as exponents,
make a multiple of the divisor. No burst does, and no few or oddly many single bits. -/

set_option autoImplicit false

namespace DiveLink.Checksum
open Polynomial

/-- The exponent that a place in some data and the checksum stored behind it stands for. The first
byte of the checksum is the low one. -/
def exponent (count place : Nat) : Nat :=
  if place < 8 * count then 8 * count + 15 - place
  else if place < 8 * count + 8 then 8 * count + 7 - place
  else 8 * count + 23 - place

noncomputable def alteration (count : Nat) (places : Finset Nat) : (ZMod 2)[X] :=
  ∑ place ∈ places, X ^ exponent count place

theorem exponent_lt {count place : Nat} (inside : place < 8 * (count + 2)) :
    exponent count place < 8 * (count + 2) := by
  unfold exponent
  split_ifs <;> omega

theorem exponent_inj {count place other : Nat} (first : place < 8 * (count + 2))
    (second : other < 8 * (count + 2)) (same : exponent count place = exponent count other) :
    place = other := by
  unfold exponent at same
  split_ifs at same <;> omega

theorem exponent_stored (count place : Nat) :
    exponent count (8 * count + place) = exponent 0 place := by
  unfold exponent
  split_ifs <;> omega

theorem exponent_twice {place : Nat} (inside : place < 16) :
    exponent 0 (exponent 0 place) = place := by
  unfold exponent
  split_ifs <;> omega

noncomputable def codeword (data : Bytes) (stored : UInt16) : (ZMod 2)[X] :=
  dividend data * X ^ 16 + terms 16 stored.toNat

theorem dvd_codeword (data : Bytes) : divisor ∣ codeword data (compute data) := by
  have whole := modByMonic_add_div (dividend data * X ^ 16) divisor
  have double := CharTwo.add_self_eq_zero (dividend data * X ^ 16 %ₘ divisor)
  refine ⟨dividend data * X ^ 16 /ₘ divisor, ?_⟩
  rw [codeword, compute_remainder]
  linear_combination double - whole

theorem dividend_eq (bs : Bytes) :
    dividend bs = ∑ place ∈ Finset.range (8 * bs.length),
      if bs.bit place then X ^ (8 * bs.length - 1 - place) else 0 := by
  induction bs with
  | nil => simp [dividend]
  | cons b later ih =>
    have size : 8 * (b :: later).length = 8 + 8 * later.length := by simp [Nat.mul_add, Nat.add_comm]
    rw [dividend, ih, size, Finset.sum_range_add]
    congr 1
    · rw [terms, ← Finset.sum_range_reflect, Finset.sum_mul]
      apply Finset.sum_congr rfl
      intro place mem
      have first := Finset.mem_range.1 mem
      have power : 8 + 8 * later.length - 1 - place = 7 - place + 8 * later.length := by omega
      rw [Bytes.bit_cons_first b later first, power, pow_add, ite_mul, zero_mul]
    · apply Finset.sum_congr rfl
      intro place _
      have power : 8 + 8 * later.length - 1 - (8 + place) = 8 * later.length - 1 - place := by omega
      rw [Bytes.bit_cons_later, power]

theorem bit_wordBytes {place : Nat} (w : UInt16) (inside : place < 16) :
    Bytes.bit (wordBytes w) place = w.toNat.testBit (exponent 0 place) := by
  by_cases first : place < 8
  · have low := Nat.testBit_mod_two_pow w.toNat 8 (7 - place)
    rw [wordBytes, Bytes.bit_cons_first _ _ first]
    simpa [exponent, first, show 7 - place < 8 by omega] using low
  · obtain ⟨rest, rfl⟩ := Nat.exists_eq_add_of_le (Nat.not_lt.1 first)
    have high := Nat.testBit_mod_two_pow (w.toNat / 256) 8 (7 - rest)
    have moved := (Nat.testBit_div_two_pow w.toNat (7 - rest) : (w.toNat / 2 ^ 8).testBit _ = _)
    have power : exponent 0 (8 + rest) = 7 - rest + 8 := by
      unfold exponent
      split_ifs <;> omega
    rw [wordBytes, Bytes.bit_cons_later, Bytes.bit_cons_first _ _ (by omega), power, ← moved]
    simpa [show 7 - rest < 8 by omega] using high

theorem terms_eq (w : UInt16) :
    terms 16 w.toNat = ∑ place ∈ Finset.range 16,
      if Bytes.bit (wordBytes w) place then X ^ exponent 0 place else 0 := by
  have inside {place : Nat} (mem : place ∈ Finset.range 16) : exponent 0 place < 16 :=
    exponent_lt (Finset.mem_range.1 mem)
  apply Finset.sum_nbij' (exponent 0) (exponent 0)
  · exact fun place mem => Finset.mem_range.2 (inside mem)
  · exact fun place mem => Finset.mem_range.2 (inside mem)
  · exact fun place mem => exponent_twice (Finset.mem_range.1 mem)
  · exact fun place mem => exponent_twice (Finset.mem_range.1 mem)
  · intro place mem
    rw [bit_wordBytes w (inside mem), exponent_twice (Finset.mem_range.1 mem)]

theorem codeword_eq (data : Bytes) (stored : UInt16) :
    codeword data stored = ∑ place ∈ Finset.range (8 * (data.length + 2)),
      if Bytes.bit (data ++ wordBytes stored) place then X ^ exponent data.length place else 0 := by
  have size : 8 * (data.length + 2) = 8 * data.length + 16 := by omega
  rw [codeword, dividend_eq, terms_eq, size, Finset.sum_range_add, Finset.sum_mul]
  apply congrArg₂ (· + ·)
  · apply Finset.sum_congr rfl
    intro place mem
    have front := Finset.mem_range.1 mem
    have power : 8 * data.length + 15 - place = 8 * data.length - 1 - place + 16 := by omega
    rw [Bytes.bit_append_front _ _ front, exponent, if_pos front, power, pow_add, ite_mul, zero_mul]
  · apply Finset.sum_congr rfl
    intro place _
    rw [Bytes.bit_append_rest, exponent_stored]

theorem codeword_add (a b : Bytes) (v w : UInt16) (length : a.length = b.length) :
    codeword a v + codeword b w =
      alteration a.length (Bytes.differences (a ++ wordBytes v) (b ++ wordBytes w)) := by
  have size : 8 * (a ++ wordBytes v).length = 8 * (a.length + 2) := by simp
  rw [codeword_eq, codeword_eq, ← length, ← Finset.sum_add_distrib, alteration, Bytes.differences,
    Finset.sum_filter, size]
  apply Finset.sum_congr rfl
  intro place _
  cases Bytes.bit (a ++ wordBytes v) place <;> cases Bytes.bit (b ++ wordBytes w) place <;>
    simp [CharTwo.add_self_eq_zero]

/-- Nothing but a multiple of the divisor goes unnoticed. -/
theorem dvd_alteration {a b : Bytes} {v w : UInt16} (length : a.length = b.length)
    (sound : v = compute a) (accepted : w = compute b) :
    divisor ∣ alteration a.length (Bytes.differences (a ++ wordBytes v) (b ++ wordBytes w)) := by
  rw [← codeword_add a b v w length, sound, accepted]
  exact dvd_add (dvd_codeword a) (dvd_codeword b)

theorem coprime_divisor (power : Nat) : IsCoprime divisor (X ^ power) := by
  apply IsCoprime.pow_right
  have double := CharTwo.add_self_eq_zero (X ^ 16 + X ^ 12 + X ^ 5 : (ZMod 2)[X])
  refine ⟨1, X ^ 15 + X ^ 11 + X ^ 4, ?_⟩
  rw [divisor]
  linear_combination double

/-- All places lie within 16 in a row. -/
def Burst (places : Finset Nat) : Prop := ∃ start, ∀ place ∈ places, start ≤ place ∧ place < start + 16

noncomputable def countedBack (last : Nat) (places : Finset Nat) : (ZMod 2)[X] :=
  ∑ place ∈ places, X ^ (last - place)

theorem coeff_countedBack (last : Nat) (places : Finset Nat) (i : Nat) :
    (countedBack last places).coeff i = ∑ place ∈ places, if i = last - place then 1 else 0 := by
  simp [countedBack, coeff_X_pow]

theorem alteration_countedBack {count last : Nat} {places : Finset Nat} (inside : last < 8 * count)
    (le_last : ∀ place ∈ places, place ≤ last) :
    alteration count places = X ^ (8 * count + 15 - last) * countedBack last places := by
  rw [alteration, countedBack, Finset.mul_sum]
  apply Finset.sum_congr rfl
  intro place mem
  have before := le_last place mem
  rw [exponent, if_pos (by omega), ← pow_add]
  congr 1
  omega

theorem degree_countedBack {last : Nat} {places : Finset Nat} (burst : Burst places)
    (mem : last ∈ places) : (countedBack last places).degree < divisor.degree := by
  obtain ⟨start, window⟩ := burst
  rw [degree_divisor, degree_lt_iff_coeff_zero]
  intro i high
  rw [coeff_countedBack]
  apply Finset.sum_eq_zero
  intro place other
  have := window place other
  have := window last mem
  exact if_neg (by omega)

theorem countedBack_ne_zero {last : Nat} {places : Finset Nat} (mem : last ∈ places)
    (le_last : ∀ place ∈ places, place ≤ last) : countedBack last places ≠ 0 := by
  have one : (countedBack last places).coeff 0 = 1 := by
    rw [coeff_countedBack, Finset.sum_eq_single_of_mem last mem]
    · simp
    · intro place other differ
      have := le_last place other
      exact if_neg (by omega)
  intro zero
  simp [zero] at one

/-- Divided by a power of X, to which the divisor is coprime, a burst is of lower degree than the
divisor. -/
theorem not_dvd_burst {count : Nat} {places : Finset Nat} (any : places.Nonempty)
    (burst : Burst places) (front : ∀ place ∈ places, place < 8 * count) :
    ¬ divisor ∣ alteration count places := by
  have mem := places.max'_mem any
  have le_last : ∀ place ∈ places, place ≤ places.max' any := places.le_max'
  intro divides
  rw [alteration_countedBack (front _ mem) le_last] at divides
  have divides := (coprime_divisor _).dvd_of_dvd_mul_left divides
  exact countedBack_ne_zero mem le_last
    (eq_zero_of_dvd_of_degree_lt divides (degree_countedBack burst mem))

/-- As long as a chunk is, no two of its bits stand for the same remainder. -/
theorem shifts_ne_one {count : Nat} (any : 0 < count) (small : count < 8 * (Chunk.dataLength + 2)) :
    shifts count 1 ≠ 1 := by
  have period : 1 ∉ List.iterate shift (shift 1) (8 * (Chunk.dataLength + 2) - 1) := by
    set_option maxRecDepth 100000 in decide +kernel
  have iterated (n : Nat) (w : UInt16) : shifts n w = shift^[n] w := by
    induction n generalizing w with
    | zero => rfl
    | succ n ih => exact ih (shift w)
  intro back
  apply period
  rw [List.mem_iterate]
  refine ⟨count - 1, by omega, ?_⟩
  rw [← Function.iterate_succ_apply, ← iterated, Nat.succ_eq_add_one, Nat.sub_add_cancel any, back]

theorem not_dvd_two {i j : Nat} (less : i < j) (small : j < 8 * (Chunk.dataLength + 2)) :
    ¬ divisor ∣ X ^ i + X ^ j := by
  intro divides
  have split : (X ^ i + X ^ j : (ZMod 2)[X]) = X ^ i * (1 + X ^ (j - i)) := by
    rw [mul_add, mul_one, ← pow_add, Nat.add_sub_cancel' (Nat.le_of_lt less)]
  rw [split] at divides
  obtain ⟨q, whole⟩ := (coprime_divisor i).dvd_of_dvd_mul_left divides
  obtain ⟨more, shifted⟩ := terms_shifts (j - i) 1
  have one : terms 16 (1 : UInt16).toNat = 1 := by
    simp [terms, Nat.testBit_one_eq_true_iff_self_eq_zero]
  have double := CharTwo.add_self_eq_zero (1 : (ZMod 2)[X])
  have same : divisor ∣ terms 16 (shifts (j - i) 1).toNat - terms 16 (1 : UInt16).toNat := by
    refine ⟨q + more, ?_⟩
    rw [shifted, one]
    linear_combination whole - double
  have least : (terms 16 (shifts (j - i) 1).toNat - terms 16 (1 : UInt16).toNat).degree <
      divisor.degree := by
    rw [degree_divisor]
    exact lt_of_le_of_lt (degree_sub_le _ _) (max_lt (degree_terms 16 _) (degree_terms 16 _))
  have equal := terms_inj (sub_eq_zero.1 (eq_zero_of_dvd_of_degree_lt same least))
  exact shifts_ne_one (by omega) (by omega) equal

def FewOrOdd (places : Finset Nat) : Prop :=
  places.card = 1 ∨ places.card = 2 ∨ places.card = 3 ∨ Odd places.card

/-- At 1 the divisor is zero, and an odd number of terms is not. -/
theorem not_dvd_odd {count : Nat} {places : Finset Nat} (odd : Odd places.card) :
    ¬ divisor ∣ alteration count places := by
  rintro ⟨q, whole⟩
  have sides := congrArg (eval 1) whole
  have zero : eval 1 divisor = 0 := by
    simp [divisor]
    decide
  rw [eval_mul, zero, zero_mul, alteration, eval_finsetSum] at sides
  have even : Even places.card := by simpa [ZMod.natCast_eq_zero_iff_even] using sides
  exact Nat.not_even_iff_odd.2 odd even

theorem not_dvd_fewOrOdd {count : Nat} {places : Finset Nat} (short : count ≤ Chunk.dataLength)
    (few : FewOrOdd places) (inside : ∀ place ∈ places, place < 8 * (count + 2)) :
    ¬ divisor ∣ alteration count places := by
  rcases few with one | two | three | odd
  · exact not_dvd_odd (one ▸ by decide)
  · obtain ⟨place, other, differ, rfl⟩ := Finset.card_eq_two.1 two
    have first := inside place (by simp)
    have second := inside other (by simp)
    have low := exponent_lt first
    have low' := exponent_lt second
    rw [alteration, Finset.sum_pair differ]
    rcases Nat.lt_trichotomy (exponent count place) (exponent count other) with less | same | less
    · exact not_dvd_two less (by omega)
    · exact absurd (exponent_inj first second same) differ
    · rw [add_comm]
      exact not_dvd_two less (by omega)
  · exact not_dvd_odd (three ▸ by decide)
  · exact not_dvd_odd odd

end DiveLink.Checksum
