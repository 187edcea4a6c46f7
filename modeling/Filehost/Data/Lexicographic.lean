import Mathlib.Data.List.Basic

namespace Filehost.Data.Lexicographic

/-! Equal-length words under the lexicographic order of their letters.  The
library knows nothing of addresses: a block is the set of words that share a
prefix, and its least and greatest words end in the extreme letters. -/

variable {α : Type u} [LT α] [Std.Asymm fun left right : α => left < right]
  [Std.Trichotomous fun left right : α => left < right]

theorem append_le_append_iff {left right : List α} (tail other : List α)
    (width : left.length = right.length) :
    left ++ tail ≤ right ++ other ↔ left < right ∨ left = right ∧ tail ≤ other := by
  induction left generalizing right with
  | nil =>
      have empty : right = [] := List.length_eq_zero_iff.mp width.symm
      subst right
      simp
  | cons letter rest ih =>
      cases right with
      | nil => simp at width
      | cons first more =>
          have widths : rest.length = more.length := by simpa using width
          simp only [List.cons_append, List.cons_le_cons_iff, List.cons_lt_cons_iff, ih widths,
            List.cons.injEq]
          constructor
          · intro holds
            rcases holds with below | ⟨rfl, below | ⟨rfl, ordered⟩⟩
            · exact .inl (.inl below)
            · exact .inl (.inr ⟨rfl, below⟩)
            · exact .inr ⟨⟨rfl, rfl⟩, ordered⟩
          · intro holds
            rcases holds with (below | ⟨rfl, below⟩) | ⟨⟨rfl, rfl⟩, ordered⟩
            · exact .inl below
            · exact .inr ⟨rfl, .inl below⟩
            · exact .inr ⟨rfl, .inr ⟨rfl, ordered⟩⟩

variable [Std.Irrefl fun left right : α => left < right]

theorem replicate_le {low : α} (least : ∀ letter, ¬ letter < low) (word : List α) :
    List.replicate word.length low ≤ word := by
  induction word with
  | nil => simp
  | cons letter rest ih =>
      simp only [List.length_cons, List.replicate_succ, List.cons_le_cons_iff]
      by_cases below : low < letter
      · exact .inl below
      · exact .inr ⟨Std.Trichotomous.trichotomous low letter below (least letter), ih⟩

theorem le_replicate {high : α} (greatest : ∀ letter, ¬ high < letter) (word : List α) :
    word ≤ List.replicate word.length high := by
  induction word with
  | nil => simp
  | cons letter rest ih =>
      simp only [List.length_cons, List.replicate_succ, List.cons_le_cons_iff]
      by_cases below : letter < high
      · exact .inl below
      · exact .inr ⟨Std.Trichotomous.trichotomous letter high below (greatest letter), ih⟩

/-- A word lies between the least and the greatest word of a block exactly
when it carries the block's prefix. -/
theorem mem_block_iff {low high : α} (least : ∀ letter, ¬ letter < low)
    (greatest : ∀ letter, ¬ high < letter) {block word : List α} (rest : List α)
    (width : block.length = word.length) :
    block ++ List.replicate rest.length low ≤ word ++ rest ∧
      word ++ rest ≤ block ++ List.replicate rest.length high ↔ block = word := by
  rw [append_le_append_iff _ _ width, append_le_append_iff _ _ width.symm]
  constructor
  · intro holds
    rcases holds with ⟨below | ⟨same, -⟩, above | ⟨same', -⟩⟩
    · exact absurd above (List.lt_asymm below)
    · exact same'.symm
    · exact same
    · exact same
  · intro same
    subst same
    exact ⟨.inr ⟨rfl, replicate_le least rest⟩, .inr ⟨rfl, le_replicate greatest rest⟩⟩

end Filehost.Data.Lexicographic
