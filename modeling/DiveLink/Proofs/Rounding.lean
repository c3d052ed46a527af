import Mathlib.Tactic.GCongr
import Mathlib.Tactic.Zify
import DiveLink.Proofs.ProgressEvents

set_option autoImplicit false

namespace DiveLink.Progress

/-- Counts of bytes whose steps fit in the words that hold them: 64 bits before the division, 32 bits
behind it. -/
structure Countable (received total : Nat) : Prop where
  any : 0 < total
  dividend : steps * received + total / 2 < UInt64.size
  quotient : (steps * received + total / 2) / total < UInt32.size

/-- A whole number of steps nearest to what `received` of `total` bytes come to: this is at most half
a step below it and less than half a step above it. -/
structure Nearest (received total : Nat) (count : ℤ) : Prop where
  reached : (2 * count - 1) * total ≤ 2 * steps * received
  unreached : 2 * steps * received < (2 * count + 1) * total

section Order
variable {received total received' total' : Nat} {count count' : ℤ}

theorem Nearest.nonneg (near : Nearest received total count) : 0 ≤ count := by
  have positive : 0 < (2 * count + 1) * total :=
    Int.lt_of_le_of_lt (by positivity) near.unreached
  have odd : 0 < 2 * count + 1 := pos_of_mul_pos_left positive (Int.natCast_nonneg total)
  omega

theorem Nearest.le (near : Nearest received total count) (near' : Nearest received' total' count')
    (more : received ≤ received') (less : total' ≤ total) : count ≤ count' := by
  refine Int.not_lt.1 fun above => ?_
  have nonneg := near'.nonneg
  have apart : (2 * steps * received' : ℤ) < 2 * steps * received :=
    calc (2 * steps * received' : ℤ)
      _ < (2 * count' + 1) * total' := near'.unreached
      _ ≤ (2 * count' + 1) * total := by gcongr
      _ ≤ (2 * count - 1) * total := by
        gcongr
        omega
      _ ≤ 2 * steps * received := near.reached
  have order : (2 * steps * received : ℤ) ≤ 2 * steps * received' := by gcongr
  exact absurd apart (Int.not_lt.2 order)

theorem Nearest.unique (near : Nearest received total count)
    (near' : Nearest received total count') : count = count' :=
  Int.le_antisymm (near.le near' (Nat.le_refl _) (Nat.le_refl _))
    (near'.le near (Nat.le_refl _) (Nat.le_refl _))

end Order

variable {received total : Nat}

theorem nearest_share (any : 0 < total) (received : Nat) :
    Nearest received total (share received total) := by
  obtain ⟨below, above⟩ := quotient_nearest any received
  rw [share_eq any]
  generalize (steps * received + total / 2) / total = quotient at below above ⊢
  zify at below above
  constructor <;> linarith

theorem step_share (countable : Countable received total) :
    (step received total).toNat = share received total := by
  obtain ⟨any, dividend, quotient⟩ := countable
  rw [step, if_neg (Nat.ne_of_gt any), Nat.mod_eq_of_lt dividend, UInt32.toNat_ofNat',
    Nat.mod_eq_of_lt quotient, share_eq any]

/-- The steps are the nearest whole number and no other, never fewer for more of less, and all of them
at the end but not beyond. -/
theorem step_rounds (countable : Countable received total) :
    (∀ k : ℤ, Nearest received total k ↔ k = (step received total).toNat) ∧
      (step received total).toNat = share received total ∧
      (received ≤ total → (step received total).toNat ≤ steps) ∧
      (received = total → (step received total).toNat = steps) ∧
      ∀ received' total' : Nat, Countable received' total' → received ≤ received' →
        total' ≤ total → step received total ≤ step received' total' := by
  have rounded := step_share countable
  have near : Nearest received total (step received total).toNat :=
    rounded ▸ nearest_share countable.any received
  refine ⟨fun k => ⟨fun other => other.unique near, ?_⟩, rounded, ?_, ?_, ?_⟩
  · rintro rfl
    exact near
  · intro fit
    rw [rounded]
    exact share_le countable.any fit
  · rintro rfl
    rw [rounded]
    exact share_end countable.any
  · intro received' total' countable' more less
    have near' : Nearest received' total' (step received' total').toNat :=
      step_share countable' ▸ nearest_share countable'.any received'
    exact UInt32.le_iff_toNat_le.2 (Int.ofNat_le.1 (near.le near' more less))

theorem step_rounds_half :
    Countable 1 17 ∧ Countable 1 16 ∧ (step 1 17).toNat = 59 ∧ (step 1 16).toNat = 63 ∧
      step 1 17 ≤ step 1 16 := by
  have odds : Countable 1 17 := ⟨by decide, by decide, by decide⟩
  have evens : Countable 1 16 := ⟨by decide, by decide, by decide⟩
  obtain ⟨near, -, -, -, order⟩ := step_rounds odds
  have below : (59 : ℤ) = (step 1 17).toNat := (near 59).1 ⟨by decide, by decide⟩
  have half : (63 : ℤ) = (step 1 16).toNat :=
    ((step_rounds evens).1 63).1 ⟨by decide, by decide⟩
  exact ⟨odds, evens, by omega, by omega, order 1 16 evens (by decide) (by decide)⟩

end DiveLink.Progress
