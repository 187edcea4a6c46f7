import Filehost.Data.BigEndian
import Filehost.Data.LeadingZeros
import Mathlib.Data.List.Infix

namespace Filehost.Challenge

open Filehost.Data

/-! # The difficulty of a challenge -/

/-- `u8::leading_zeros`. -/
def leadingZeros (byte : UInt8) : Nat := byte.toBitVec.clz.toNat

def leadingZeroBits : List UInt8 → Nat
  | [] => 0
  | byte :: rest => if byte = 0 then 8 + leadingZeroBits rest else leadingZeros byte

def byteBits (byte : UInt8) : List Bool := (List.range 8).map fun place => byte.toBitVec.getMsbD place

def bits (bytes : List UInt8) : List Bool := bytes.flatMap byteBits

/-- The first bits are all zero. -/
def HasLeadingZeros (count : Nat) (bytes : List UInt8) : Prop :=
  List.replicate count false <+: bits bytes

instance (count : Nat) (bytes : List UInt8) : Decidable (HasLeadingZeros count bytes) :=
  inferInstanceAs (Decidable (_ <+: _))

theorem byteBits_of_ne_zero {byte : UInt8} (nonzero : byte ≠ 0) :
    byteBits byte = List.replicate (leadingZeros byte) false ++
      true :: (byteBits byte).drop (leadingZeros byte + 1) := by
  have all : ∀ value < 256, UInt8.ofNat value ≠ 0 →
      byteBits (UInt8.ofNat value) = List.replicate (leadingZeros (UInt8.ofNat value)) false ++
        true :: (byteBits (UInt8.ofNat value)).drop (leadingZeros (UInt8.ofNat value) + 1) := by
    decide +kernel
  have known := all byte.toNat byte.toNat_lt
  rw [UInt8.ofNat_toNat] at known
  exact known nonzero

theorem replicate_prefix_iff {count zeros : Nat} {rest : List Bool} :
    List.replicate count false <+: List.replicate zeros false ++ true :: rest ↔ count ≤ zeros := by
  constructor
  · intro leads
    by_contra more
    obtain ⟨extra, rfl⟩ : ∃ extra, count = zeros + (extra + 1) :=
      ⟨count - zeros - 1, by omega⟩
    rw [List.replicate_add, List.prefix_append_right_inj, List.replicate_succ,
      List.cons_prefix_cons] at leads
    exact Bool.noConfusion leads.1
  · intro fits
    obtain ⟨extra, rfl⟩ := Nat.exists_eq_add_of_le fits
    rw [List.replicate_add, List.append_assoc]
    exact List.prefix_append _ _

theorem le_leadingZeroBits_iff {count : Nat} {bytes : List UInt8} :
    count ≤ leadingZeroBits bytes ↔ HasLeadingZeros count bytes := by
  unfold HasLeadingZeros
  induction bytes generalizing count with
  | nil => simp [leadingZeroBits, bits]
  | cons byte rest ih =>
      rw [leadingZeroBits, bits, List.flatMap_cons, ← bits]
      by_cases zero : byte = 0
      · rw [if_pos zero, zero]
        have whole : byteBits 0 = List.replicate 8 false := by decide
        rw [whole]
        by_cases few : count ≤ 8
        · obtain ⟨extra, width⟩ := Nat.exists_eq_add_of_le few
          refine iff_of_true (by omega) ?_
          rw [width, List.replicate_add, List.append_assoc]
          exact List.prefix_append _ _
        · obtain ⟨extra, rfl⟩ : ∃ extra, count = 8 + extra := ⟨count - 8, by omega⟩
          rw [List.replicate_add, List.prefix_append_right_inj, ← ih]
          omega
      · rw [if_neg zero, byteBits_of_ne_zero zero, List.append_assoc, List.cons_append,
          replicate_prefix_iff]

/-! ## Difficulty as a bound -/

theorem le_leadingZeros_iff {count : Nat} (byte : UInt8) (fits : count ≤ 8) :
    count ≤ leadingZeros byte ↔ byte.toNat < 2 ^ (8 - count) :=
  LeadingZeros.le_clz_iff byte.toBitVec fits

theorem leadingZeros_le (byte : UInt8) : leadingZeros byte ≤ 8 := LeadingZeros.clz_le byte.toBitVec

theorem leadingZeros_lt {byte : UInt8} (nonzero : byte ≠ 0) : leadingZeros byte < 8 := by
  by_contra all
  have small := (le_leadingZeros_iff byte (by decide)).mp (Nat.not_lt.mp all)
  exact nonzero (UInt8.toNat_inj.mp (Nat.lt_one_iff.mp small))

theorem le_leadingZeroBits_cons_iff {count : Nat} {byte : UInt8} {rest : List UInt8}
    (few : count ≤ 8) :
    count ≤ leadingZeroBits (byte :: rest) ↔ byte.toNat < 2 ^ (8 - count) := by
  rw [leadingZeroBits]
  split
  · rename_i zero
    rw [zero]
    exact iff_of_true (by omega) (Nat.two_pow_pos _)
  · exact le_leadingZeros_iff byte few

theorem add_le_leadingZeroBits_cons_iff {more : Nat} {byte : UInt8} {rest : List UInt8} :
    8 + more ≤ leadingZeroBits (byte :: rest) ↔ byte = 0 ∧ more ≤ leadingZeroBits rest := by
  rw [leadingZeroBits]
  split
  · rename_i zero
    rw [Nat.add_le_add_iff_left, and_iff_right zero]
  · rename_i nonzero
    have few := leadingZeros_lt nonzero
    exact iff_of_false (by omega) fun both => nonzero both.1

/-- Bytes have so many leading zero bits when the number they spell is so small. -/
theorem le_leadingZeroBits_iff_decode_lt {count : Nat} {bytes : List UInt8}
    (fits : count ≤ 8 * bytes.length) :
    count ≤ leadingZeroBits bytes ↔ BigEndian.decode bytes < 2 ^ (8 * bytes.length - count) := by
  induction bytes generalizing count with
  | nil => simpa [leadingZeroBits, BigEndian.decode, Numerals.value] using fits
  | cons byte rest ih =>
      have power : 256 ^ rest.length = 2 ^ (8 * rest.length) := by rw [Nat.pow_mul]
      rw [List.length_cons, Nat.mul_add] at fits ⊢
      by_cases few : count ≤ 8
      · -- the bound is a multiple of what the rest can hold
        have bound : 2 ^ (8 * rest.length + 8 * 1 - count) =
            256 ^ rest.length * 2 ^ (8 - count) := by
          rw [power, ← Nat.pow_add]
          congr 1
          omega
        rw [bound, BigEndian.decode_cons_lt_iff, le_leadingZeroBits_cons_iff few]
      · obtain ⟨more, rfl⟩ : ∃ more, count = 8 + more := ⟨count - 8, by omega⟩
        have bound : 8 * rest.length + 8 * 1 - (8 + more) = 8 * rest.length - more := by omega
        have narrow : 2 ^ (8 * rest.length - more) ≤ 256 ^ rest.length := by
          rw [power]
          exact Nat.pow_le_pow_right (by decide) (Nat.sub_le _ _)
        rw [bound, BigEndian.decode_cons_lt_iff_of_le narrow, add_le_leadingZeroBits_cons_iff,
          ih (by omega)]

end Filehost.Challenge
