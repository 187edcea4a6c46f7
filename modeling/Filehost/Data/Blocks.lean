import Mathlib.Data.Nat.Bitwise

namespace Filehost.Data.Blocks

/-! Aligned blocks of numbers: those that differ from a given one in their low bits
at most.  A mask of the low bits makes the bounds of the block. -/

variable {width bits : Nat}

def first (bits value : Nat) : Nat := value / 2 ^ bits * 2 ^ bits

def last (bits value : Nat) : Nat := first bits value + (2 ^ bits - 1)

theorem first_le (bits value : Nat) : first bits value ≤ value := Nat.div_mul_le_self value _

theorem le_last (bits value : Nat) : value ≤ last bits value := by
  have positive := Nat.two_pow_pos bits
  have inside := Nat.mod_lt value positive
  have split := Nat.div_add_mod' value (2 ^ bits)
  unfold last first
  omega

/-- A number lies in the block exactly when it agrees in the high bits. -/
theorem mem_iff (value other : Nat) :
    first bits value ≤ other ∧ other ≤ last bits value ↔
      other / 2 ^ bits = value / 2 ^ bits := by
  have positive := Nat.two_pow_pos bits
  unfold last first
  constructor
  · intro inside
    apply Nat.div_eq_of_lt_le
    · exact inside.1
    · rw [Nat.succ_mul]
      omega
  · intro agrees
    rw [← agrees]
    exact ⟨first_le bits other, le_last bits other⟩

theorem last_lt {value : Nat} (small : value < 2 ^ width) (short : bits ≤ width) :
    last bits value < 2 ^ width := by
  have agrees := (mem_iff value (last bits value)).mp
    ⟨(first_le bits value).trans (le_last bits value), le_refl _⟩
  obtain ⟨more, rfl⟩ := Nat.exists_eq_add_of_le short
  have quotient : value / 2 ^ bits < 2 ^ more := by
    apply Nat.div_lt_of_lt_mul
    rwa [← Nat.pow_add]
  rw [← agrees, Nat.div_lt_iff_lt_mul (Nat.two_pow_pos bits), Nat.mul_comm, ← Nat.pow_add]
    at quotient
  exact quotient

/-! ## Masks -/

variable {value mask : BitVec width}

theorem getLsbD_mask (masks : mask.toNat = 2 ^ bits - 1) (index : Nat) :
    mask.getLsbD index = decide (index < bits) := by
  rw [← BitVec.testBit_toNat, masks, Nat.testBit_two_pow_sub_one]

theorem toNat_and_not (masks : mask.toNat = 2 ^ bits - 1) :
    (value &&& ~~~mask).toNat = first bits value.toNat := by
  apply Nat.eq_of_testBit_eq
  intro index
  rw [first, Nat.testBit_mul_two_pow, Nat.testBit_div_two_pow, BitVec.testBit_toNat,
    BitVec.getLsbD_and, BitVec.getLsbD_not, getLsbD_mask masks]
  by_cases high : bits ≤ index
  · rw [Nat.sub_add_cancel high, BitVec.testBit_toNat]
    cases bit : value.getLsbD index with
    | false => simp
    | true => simp [high, BitVec.lt_of_getLsbD bit]
  · simp [high, Nat.not_le.mp high]

theorem toNat_or (masks : mask.toNat = 2 ^ bits - 1) :
    (value ||| mask).toNat = last bits value.toNat := by
  have below : 2 ^ bits - 1 < 2 ^ bits := Nat.sub_lt (Nat.two_pow_pos bits) Nat.one_pos
  rw [last, first, Nat.mul_comm, Nat.two_pow_add_eq_or_of_lt below]
  apply Nat.eq_of_testBit_eq
  intro index
  rw [Nat.testBit_or, Nat.testBit_two_pow_mul, Nat.testBit_two_pow_sub_one, Nat.testBit_div_two_pow,
    BitVec.testBit_toNat, BitVec.getLsbD_or, getLsbD_mask masks]
  by_cases high : bits ≤ index
  · rw [Nat.sub_add_cancel high, BitVec.testBit_toNat]
    simp [high, Nat.not_lt.mpr high]
  · simp [high, Nat.not_le.mp high]

end Filehost.Data.Blocks
