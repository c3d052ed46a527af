import Mathlib.Algebra.CharP.Two
import Mathlib.Algebra.Field.ZMod
import Mathlib.Algebra.Polynomial.Div
import Mathlib.Tactic.ComputeDegree
import Mathlib.Tactic.LinearCombination
import DiveLink.Checksum
import DiveLink.Proofs.Bits

set_option autoImplicit false

namespace DiveLink.Checksum
open Polynomial

noncomputable def terms (count n : Nat) : (ZMod 2)[X] :=
  ∑ i ∈ Finset.range count, if n.testBit i then X ^ i else 0

/-- All bits of some data as coefficients, the first bit as the leading one. -/
noncomputable def dividend : Bytes → (ZMod 2)[X]
  | [] => 0
  | b :: later => terms 8 b.toNat * X ^ (8 * later.length) + dividend later

noncomputable def divisor : (ZMod 2)[X] := X ^ 16 + X ^ 12 + X ^ 5 + 1

theorem divisor_eq : divisor = X ^ 16 + (X ^ 12 + X ^ 5 + 1) := by
  rw [divisor]
  ring

theorem degree_tail : (X ^ 12 + X ^ 5 + 1 : (ZMod 2)[X]).degree < (16 : Nat) := by
  compute_degree
  decide

theorem divisor_monic : divisor.Monic := by
  rw [divisor_eq]
  exact monic_X_pow_add degree_tail

theorem degree_divisor : divisor.degree = (16 : Nat) := by
  rw [divisor_eq]
  rw [degree_add_eq_left_of_degree_lt] <;> rw [degree_X_pow]
  exact degree_tail

theorem terms_succ (count n : Nat) :
    terms (count + 1) n = terms count n + if n.testBit count then X ^ count else 0 :=
  Finset.sum_range_succ ..

theorem coeff_terms (count n i : Nat) :
    (terms count n).coeff i = if i < count ∧ n.testBit i then 1 else 0 := by
  induction count with
  | zero => simp [terms]
  | succ count ih =>
    rw [terms_succ, coeff_add, ih]
    by_cases last : i = count
    · subst last
      cases n.testBit i <;> simp
    · have same : i < count + 1 ↔ i < count := by omega
      cases n.testBit count <;> simp [same, coeff_X_pow, last]

theorem degree_terms (count n : Nat) : (terms count n).degree < (count : Nat) := by
  rw [degree_lt_iff_coeff_zero]
  intro i high
  simp [coeff_terms, Nat.not_lt.2 high]

theorem terms_inj {v w : UInt16} (same : terms 16 v.toNat = terms 16 w.toNat) : v = w := by
  apply UInt16.toNat.inj
  apply eq_of_bits v.toNat_lt w.toNat_lt
  intro i low
  have h := congrArg (coeff · i) same
  simp only [coeff_terms, low, true_and] at h
  cases hv : v.toNat.testBit i <;> cases hw : w.toNat.testBit i <;> simp_all

theorem terms_xor (count m n : Nat) : terms count (m ^^^ n) = terms count m + terms count n := by
  rw [terms, terms, terms, ← Finset.sum_add_distrib]
  apply Finset.sum_congr rfl
  intro i _
  cases hm : m.testBit i <;> cases hn : n.testBit i <;>
    simp [Nat.testBit_xor, hm, hn, CharTwo.add_self_eq_zero]

theorem terms_mod (count n : Nat) : terms count (n % 2 ^ count) = terms count n := by
  apply Finset.sum_congr rfl
  intro i low
  simp [Nat.testBit_mod_two_pow, Finset.mem_range.1 low]

theorem terms_double (count n : Nat) : terms (count + 1) (2 * n) = X * terms count n := by
  simp [terms, Finset.sum_range_succ', Finset.mul_sum, Nat.testBit_succ, pow_succ']

theorem terms_scale (count n more : Nat) :
    terms (count + more) (2 ^ more * n) = X ^ more * terms count n := by
  induction more with
  | zero => simp
  | succ more ih =>
    rw [← Nat.add_assoc, pow_succ', Nat.mul_assoc, terms_double, ih, pow_succ', mul_assoc]

theorem terms_generator : terms 16 generator.toNat = X ^ 12 + X ^ 5 + 1 := by
  have bits : ∀ i < 16, generator.toNat.testBit i = decide (i = 0 ∨ i = 5 ∨ i = 12) := by decide
  rw [terms, Finset.sum_congr rfl fun i low => by rw [bits i (Finset.mem_range.1 low)]]
  simp [Finset.sum_range_succ]
  ring

theorem leading_eq_zero (w : UInt16) : w &&& 0x8000 = 0 ↔ w.toNat.testBit 15 = false := by
  have bit : w.toNat &&& 32768 = (w.toNat.testBit 15).toNat * 32768 := Nat.and_two_pow w.toNat 15
  rw [← UInt16.toNat_inj]
  cases top : w.toNat.testBit 15 <;> simp [bit, top]

/-- One more bit multiplies by X. A term that has become too high is taken back with the divisor. -/
theorem terms_shift (w : UInt16) :
    terms 16 (shift w).toNat =
      X * terms 16 w.toNat + if w.toNat.testBit 15 then divisor else 0 := by
  have moved : terms 16 (w <<< 1).toNat = X * terms 15 w.toNat := by
    rw [← terms_double, ← terms_mod 16 (2 * w.toNat)]
    simp [Nat.shiftLeft_eq, Nat.mul_comm]
  have whole := terms_succ 15 w.toNat
  unfold shift
  by_cases leading : w &&& 0x8000 = 0
  · rw [if_pos leading, moved, whole]
    simp [(leading_eq_zero w).1 leading]
  · have top : w.toNat.testBit 15 = true := by simpa [leading_eq_zero] using leading
    have double := CharTwo.add_self_eq_zero (X ^ 16 : (ZMod 2)[X])
    rw [if_neg leading, UInt16.toNat_xor, terms_xor, moved, terms_generator, whole, divisor]
    simp only [top, if_true]
    linear_combination -double

theorem terms_shifts (count : Nat) (w : UInt16) :
    ∃ q, terms 16 (shifts count w).toNat = X ^ count * terms 16 w.toNat + divisor * q := by
  induction count generalizing w with
  | zero => exact ⟨0, by simp [shifts]⟩
  | succ count ih =>
    obtain ⟨q, h⟩ := ih (shift w)
    rw [shifts, h, terms_shift]
    split
    · exact ⟨X ^ count + q, by ring⟩
    · exact ⟨q, by ring⟩

theorem terms_byte (b : UInt8) : terms 16 (b.toUInt16 <<< 8).toNat = X ^ 8 * terms 8 b.toNat := by
  have number : (b.toUInt16 <<< 8).toNat = 2 ^ 8 * b.toNat % 2 ^ 16 := by
    simp [Nat.shiftLeft_eq, Nat.mul_comm]
  rw [number, terms_mod, terms_scale 8 b.toNat 8]

theorem terms_absorb (w : UInt16) (b : UInt8) :
    ∃ q, terms 16 (absorb w b).toNat =
      terms 16 w.toNat * X ^ 8 + terms 8 b.toNat * X ^ 16 + divisor * q := by
  obtain ⟨q, h⟩ := terms_shifts 8 (w ^^^ (b.toUInt16 <<< 8))
  refine ⟨q, ?_⟩
  rw [absorb, h, UInt16.toNat_xor, terms_xor, terms_byte]
  ring

theorem terms_foldl (bs : Bytes) (w : UInt16) :
    ∃ q, terms 16 (bs.foldl absorb w).toNat =
      terms 16 w.toNat * X ^ (8 * bs.length) + dividend bs * X ^ 16 + divisor * q := by
  induction bs generalizing w with
  | nil => exact ⟨0, by simp [dividend]⟩
  | cons b later ih =>
    obtain ⟨first, taken⟩ := terms_absorb w b
    obtain ⟨q, h⟩ := ih (absorb w b)
    refine ⟨first * X ^ (8 * later.length) + q, ?_⟩
    rw [List.foldl_cons, h, taken, dividend, List.length_cons]
    ring

/-- What the checksum is: the remainder of the data, times X¹⁶, modulo X¹⁶ + X¹² + X⁵ + 1. -/
theorem compute_remainder (bs : Bytes) :
    terms 16 (compute bs).toNat = dividend bs * X ^ 16 %ₘ divisor := by
  obtain ⟨q, h⟩ := terms_foldl bs initial
  have zero : terms 16 initial.toNat = 0 := by simp [terms, initial]
  have masked : compute bs = bs.foldl absorb initial := by simp [compute, finalMask]
  have least : (terms 16 (compute bs).toNat).degree < divisor.degree := by
    rw [degree_divisor]
    exact degree_terms 16 _
  refine ((div_modByMonic_unique (-q) _ divisor_monic ⟨?_, least⟩).2).symm
  rw [masked, h, zero]
  ring

end DiveLink.Checksum
