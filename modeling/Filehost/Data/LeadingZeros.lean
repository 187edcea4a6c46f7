import Mathlib.Algebra.Group.Nat.Defs

namespace Filehost.Data.LeadingZeros

/-! Leading zeros of a word, counted and as a bound on its number. -/

theorem clz_zero (width : Nat) : (BitVec.ofNat width 0).clz.toNat = width := by
  rw [BitVec.clz_eq_iff_eq_zero.mpr rfl, BitVec.natCast_eq_ofNat, BitVec.toNat_ofNat,
    Nat.mod_eq_of_lt Nat.lt_two_pow_self]

theorem le_clz_iff {width count : Nat} (word : BitVec width) (fits : count ≤ width) :
    count ≤ word.clz.toNat ↔ word.toNat < 2 ^ (width - count) := by
  constructor
  · intro leads
    have below := BitVec.toNat_lt_two_pow_sub_clz (x := word)
    exact Nat.lt_of_lt_of_le below (Nat.pow_le_pow_right (by decide) (by omega))
  · intro small
    refine Nat.le_of_not_lt fun few => ?_
    have nonzero : word ≠ BitVec.ofNat width 0 := by
      rintro rfl
      rw [clz_zero] at few
      omega
    have above := BitVec.two_pow_sub_clz_le_toNat_of_ne_zero (by omega) nonzero
    have powers : 2 ^ (width - count) ≤ 2 ^ (width - 1 - word.clz.toNat) :=
      Nat.pow_le_pow_right (by decide) (by omega)
    omega

theorem clz_le {width : Nat} (word : BitVec width) : word.clz.toNat ≤ width := by
  have bounded := BitVec.le_def.mp (BitVec.clz_le (x := word))
  rwa [BitVec.natCast_eq_ofNat, BitVec.toNat_ofNat, Nat.mod_eq_of_lt Nat.lt_two_pow_self] at bounded

/-- A wider word has the zeros of its new bits in front. -/
theorem clz_setWidth {width wider : Nat} (word : BitVec width) (grows : width ≤ wider) :
    (word.setWidth wider).clz.toNat = wider - width + word.clz.toNat := by
  have same (count : Nat) (fits : count ≤ width) :
      wider - width + count ≤ (word.setWidth wider).clz.toNat ↔ count ≤ word.clz.toNat := by
    have remaining : wider - (wider - width + count) = width - count := by omega
    rw [le_clz_iff _ (by omega), le_clz_iff _ fits, BitVec.toNat_setWidth_of_le grows, remaining]
  have least := (same 0 (Nat.zero_le _)).mpr (Nat.zero_le _)
  have widest := clz_le (word.setWidth wider)
  have lower := (same word.clz.toNat (clz_le word)).mpr (Nat.le_refl _)
  have upper := (same ((word.setWidth wider).clz.toNat - (wider - width)) (by omega)).mp (by omega)
  omega

end Filehost.Data.LeadingZeros
