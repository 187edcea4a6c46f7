import Mathlib.Data.Nat.Digits.Defs

namespace Filehost.Data.Numerals

/-! Words as numerals, their most significant letter first.  Among words of one
length the lexicographic order is the order of the numbers. -/

variable {α : Type u} (base : Nat) (digit : α → Nat)

def value (word : List α) : Nat := Nat.ofDigits base (word.map digit).reverse

theorem value_cons (letter : α) (rest : List α) :
    value base digit (letter :: rest) =
      value base digit rest + base ^ rest.length * digit letter := by
  rw [value, List.map_cons, Nat.ofDigits_reverse_cons, List.length_map]
  rfl

theorem value_append (word other : List α) :
    value base digit (word ++ other) =
      value base digit other + base ^ other.length * value base digit word := by
  rw [value, List.map_append, List.reverse_append, Nat.ofDigits_append, List.length_reverse,
    List.length_map]
  rfl

theorem value_map {β : Type v} (spell : β → α) (word : List β) :
    value base digit (word.map spell) = value base (digit ∘ spell) word := by
  rw [value, List.map_map]
  rfl

variable {base digit}

theorem value_padded {pad : α} (zero : digit pad = 0) (count : Nat) (word : List α) :
    value base digit (List.replicate count pad ++ word) = value base digit word := by
  rw [value, List.map_append, List.map_replicate, zero, List.reverse_append, List.reverse_replicate,
    Nat.ofDigits_append_replicate_zero]
  rfl

/-- A number is written by writing its quotient, then its last digit. -/
theorem value_toDigits {digit : Char → Nat} (large : 1 < base)
    (spelled : ∀ number < base, digit (Nat.digitChar number) = number) (number : Nat) :
    value base digit (Nat.toDigits base number) = number := by
  have single : ∀ char, value base digit [char] = digit char := fun _ => Nat.ofDigits_singleton
  induction number using Nat.strongRecOn with
  | ind number ih =>
      rw [Nat.toDigits_eq_if large]
      split
      · rename_i small
        rw [single, spelled number small]
      · rename_i wide
        have quotient : number / base < number := Nat.div_lt_self (by omega) large
        rw [value_append, ih _ quotient, single, spelled _ (Nat.mod_lt _ (by omega)),
          List.length_singleton, Nat.pow_one]
        exact Nat.mod_add_div number base

theorem exists_digit_of_mem_toDigits (large : 1 < base) {number : Nat} {char : Char}
    (member : char ∈ Nat.toDigits base number) : ∃ digit < base, char = Nat.digitChar digit := by
  induction number using Nat.strongRecOn with
  | ind number ih =>
      rw [Nat.toDigits_eq_if large] at member
      split at member
      · rename_i small
        exact ⟨number, small, List.mem_singleton.mp member⟩
      · rename_i wide
        rcases List.mem_append.mp member with earlier | last
        · exact ih _ (Nat.div_lt_self (by omega) large) earlier
        · exact ⟨_, Nat.mod_lt _ (by omega), List.mem_singleton.mp last⟩

theorem value_lt (large : 1 < base) (small : ∀ letter, digit letter < base) (word : List α) :
    value base digit word < base ^ word.length := by
  have digits : ∀ number ∈ (word.map digit).reverse, number < base := by
    intro number member
    obtain ⟨letter, -, rfl⟩ := List.mem_map.mp (List.mem_reverse.mp member)
    exact small letter
  have bound := Nat.ofDigits_lt_base_pow_length large digits
  rwa [List.length_reverse, List.length_map] at bound

/-- Numerals of one length differ first in a letter, and the rest cannot make up
for it. -/
theorem lt_iff_value_lt [LT α] (large : 1 < base) (small : ∀ letter, digit letter < base)
    (ordered : ∀ left right, left < right ↔ digit left < digit right)
    (distinct : ∀ left right, digit left = digit right → left = right) {left right : List α}
    (width : left.length = right.length) :
    left < right ↔ value base digit left < value base digit right := by
  induction left generalizing right with
  | nil =>
      obtain rfl : right = [] := List.length_eq_zero_iff.mp width.symm
      simp
  | cons letter rest ih =>
      cases right with
      | nil => simp at width
      | cons other others =>
          have widths : rest.length = others.length := by simpa using width
          have restLt := value_lt large small rest
          have othersLt := value_lt large small others
          rw [List.cons_lt_cons_iff, value_cons, value_cons, ih widths, ordered, ← widths]
          rw [← widths] at othersLt
          constructor
          · intro holds
            rcases holds with below | ⟨rfl, below⟩
            · have wide := Nat.mul_le_mul_left (base ^ rest.length) (Nat.succ_le_of_lt below)
              rw [Nat.mul_succ] at wide
              omega
            · omega
          · intro below
            rcases Nat.lt_trichotomy (digit letter) (digit other) with less | same | more
            · exact .inl less
            · obtain rfl := distinct _ _ same
              exact .inr ⟨rfl, by omega⟩
            · have wide := Nat.mul_le_mul_left (base ^ rest.length) (Nat.succ_le_of_lt more)
              rw [Nat.mul_succ] at wide
              omega

theorem le_iff_value_le [LT α] (large : 1 < base) (small : ∀ letter, digit letter < base)
    (ordered : ∀ left right, left < right ↔ digit left < digit right)
    (distinct : ∀ left right, digit left = digit right → left = right) {left right : List α}
    (width : left.length = right.length) :
    left ≤ right ↔ value base digit left ≤ value base digit right := by
  rw [← Nat.not_lt, ← lt_iff_value_lt large small ordered distinct width.symm]
  rfl

end Filehost.Data.Numerals
