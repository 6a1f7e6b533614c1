import Mathlib.Algebra.Ring.Nat

/-! # Aligned blocks of numbers

The numbers that agree with `n` up to their low bits are the aligned block around `n`. Clearing low
bits with a shifted mask compares bit vectors by their blocks, and blocks of a larger power of two are
unions of smaller ones.
-/

namespace Nat

/-- `n` rounded down to a multiple of `size`. -/
def blockStart (size n : ℕ) : ℕ := n - n % size

theorem blockStart_eq (size n : ℕ) : blockStart size n = n / size * size := by
  have divided := Nat.div_add_mod n size
  rw [blockStart, Nat.mul_comm]
  omega

/-- Numbers with one quotient are those of one block. -/
theorem div_eq_div_iff_mem_block {size : ℕ} (positive : 0 < size) {a n : ℕ} :
    a / size = n / size ↔ blockStart size n ≤ a ∧ a < blockStart size n + size := by
  rw [Nat.div_eq_iff positive, blockStart_eq]
  omega

/-- A block below an aligned bound ends at or below it. -/
theorem blockStart_add_le {size total n : ℕ} (aligned : size ∣ total) (below : n < total) :
    blockStart size n + size ≤ total := by
  obtain ⟨count, rfl⟩ := aligned
  have fewer : n / size < count := Nat.div_lt_of_lt_mul below
  calc
    blockStart size n + size = (n / size + 1) * size := by rw [blockStart_eq, Nat.add_mul, Nat.one_mul]
    _ ≤ count * size := Nat.mul_le_mul_right size fewer
    _ = size * count := Nat.mul_comm count size

/-- Numbers of one block agree in every larger block of a power of two. -/
theorem div_pow_eq_of_le {a n low high : ℕ} (le : low ≤ high) (same : a / 2 ^ low = n / 2 ^ low) :
    a / 2 ^ high = n / 2 ^ high := by
  obtain ⟨more, rfl⟩ := Nat.exists_eq_add_of_le le
  rw [Nat.pow_add, ← Nat.div_div_eq_div_mul, same, Nat.div_div_eq_div_mul]

end Nat

namespace BitVec

variable {width : ℕ}

/-- Clearing the low `low` bits compares quotients. -/
theorem and_shiftLeft_allOnes_eq_iff (x y : BitVec width) (low : ℕ) :
    x &&& allOnes width <<< low = y &&& allOnes width <<< low ↔
      x.toNat / 2 ^ low = y.toNat / 2 ^ low := by
  have shifted : x.toNat / 2 ^ low = y.toNat / 2 ^ low ↔ x >>> low = y >>> low := by
    rw [← BitVec.toNat_inj, toNat_ushiftRight, toNat_ushiftRight, Nat.shiftRight_eq_div_pow,
      Nat.shiftRight_eq_div_pow]
  rw [shifted]
  constructor
  · intro same
    apply eq_of_getLsbD_eq
    intro i _
    have bit := congrArg (getLsbD · (low + i)) same
    have above : ¬ low + i < low := by omega
    by_cases inside : low + i < width
    · simpa [inside, above] using bit
    · simp [getLsbD_of_ge _ _ (Nat.not_lt.mp inside)]
  · intro same
    apply eq_of_getLsbD_eq
    intro i inside
    by_cases cleared : i < low
    · simp [cleared]
    · have bit := congrArg (getLsbD · (i - low)) same
      have index : low + (i - low) = i := by omega
      simp only [getLsbD_ushiftRight, index] at bit
      simp [bit]

end BitVec
