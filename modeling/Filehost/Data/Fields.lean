import Mathlib.Data.List.DropRight

namespace Filehost.Data.Fields

/-! Separated lists: the text is cut at every separator, each piece loses its
surrounding blanks, and empty pieces are dropped. -/

variable {α : Type u} {β : Type v}

def trim (blank : α → Bool) (piece : List α) : List α :=
  (piece.dropWhile blank).rdropWhile blank

def fields [BEq α] (separator : α) (blank : α → Bool) (text : List α) : List (List α) :=
  ((text.splitOn separator).map (trim blank)).filter fun piece => !piece.isEmpty

section Concatenation

variable {separator : α} {blank : α → Bool} {text : List α}

theorem dropWhile_of_no_blank (solid : ∀ x ∈ text, blank x = false) :
    text.dropWhile blank = text := by
  cases text with
  | nil => rfl
  | cons head tail => simp [solid head (by simp)]

theorem trim_of_no_blank (solid : ∀ x ∈ text, blank x = false) : trim blank text = text := by
  have reversed : ∀ x ∈ text.reverse, blank x = false :=
    fun x member => solid x (List.mem_reverse.mp member)
  rw [trim, dropWhile_of_no_blank solid, List.rdropWhile, dropWhile_of_no_blank reversed,
    List.reverse_reverse]

theorem trim_trim (blank : α → Bool) (text : List α) :
    trim blank (trim blank text) = trim blank text := by
  have led : (trim blank text).dropWhile blank = trim blank text := by
    rw [List.dropWhile_eq_self_iff]
    intro nonempty
    have shorter := List.rdropWhile_prefix blank (text.dropWhile blank)
    have kept := List.dropWhile_get_zero_not blank text (nonempty.trans_le shorter.length_le)
    rwa [List.get_eq_getElem, ← shorter.getElem nonempty] at kept
  calc
    trim blank (trim blank text) = (trim blank text).rdropWhile blank := by rw [trim, led]
    _ = trim blank text := List.rdropWhile_idempotent blank _

variable [BEq α] [LawfulBEq α]

theorem not_mem_of_mem_splitOn {part : List α} (listed : part ∈ text.splitOn separator) :
    separator ∉ part := by
  induction text generalizing part with
  | nil =>
      rw [List.splitOn_nil, List.mem_singleton] at listed
      simp [listed]
  | cons head rest ih =>
      obtain ⟨first, later, split⟩ := List.exists_cons_of_ne_nil (List.splitOn_ne_nil separator rest)
      rw [List.splitOn_cons_eq_if_modifyHead, split] at listed
      rw [split] at ih
      by_cases here : head = separator
      · have pieces : part = [] ∨ part ∈ first :: later := by simpa [here] using listed
        rcases pieces with empty | inside
        · simp [empty]
        · exact ih inside
      · have pieces : part = head :: first ∨ part ∈ later := by simpa [here] using listed
        rcases pieces with extended | inside
        · rw [extended, List.mem_cons, not_or]
          exact ⟨Ne.symm here, ih List.mem_cons_self⟩
        · exact ih (List.mem_cons_of_mem _ inside)

theorem fields_append_cons (blank : α → Bool) (text rest : List α) :
    fields separator blank (text ++ separator :: rest) =
      fields separator blank text ++ fields separator blank rest := by
  simp only [fields, List.splitOn_append_cons_self, List.map_append, List.filter_append]

theorem fields_of_no_separator (whole : separator ∉ text) (solid : trim blank text ≠ []) :
    fields separator blank text = [trim blank text] := by
  simp [fields, List.splitOn_eq_singleton whole, solid]

/-- Solid pieces put after a text are its last fields, whatever the text. -/
theorem fields_append_pieces {pieces : List (List α)}
    (solid : ∀ piece ∈ pieces, separator ∉ piece ∧ trim blank piece ≠ []) :
    fields separator blank (text ++ pieces.flatMap (separator :: ·)) =
      fields separator blank text ++ pieces.map (trim blank) := by
  induction pieces generalizing text with
  | nil => simp
  | cons piece pieces ih =>
      obtain ⟨whole, nonempty⟩ := solid piece (by simp)
      have later := @ih (text ++ separator :: piece) fun other member => solid other (by simp [member])
      rw [List.append_assoc] at later
      rw [List.flatMap_cons, later, fields_append_cons, fields_of_no_separator whole nonempty]
      simp

end Concatenation

section Transport

variable {f : α → β} {blank : α → Bool} {blank' : β → Bool} {text : List α}

theorem dropWhile_map_of_agree (agree : ∀ x ∈ text, blank' (f x) = blank x) :
    (text.map f).dropWhile blank' = (text.dropWhile blank).map f := by
  induction text with
  | nil => rfl
  | cons head tail ih =>
      have same := agree head (by simp)
      simp only [List.map_cons, List.dropWhile_cons, same]
      split
      · exact ih fun x member => agree x (by simp [member])
      · rfl

theorem trim_map_of_agree (agree : ∀ x ∈ text, blank' (f x) = blank x) :
    trim blank' (text.map f) = (trim blank text).map f := by
  have kept : ∀ x ∈ (text.dropWhile blank).reverse, blank' (f x) = blank x := by
    intro x member
    exact agree x ((List.dropWhile_sublist blank).subset (List.mem_reverse.mp member))
  simp only [trim, List.rdropWhile, dropWhile_map_of_agree agree, ← List.map_reverse,
    dropWhile_map_of_agree kept]

theorem splitOn_map_of_agree [BEq α] [BEq β] {separator : α} {separator' : β}
    (agree : ∀ x ∈ text, (f x == separator') = (x == separator)) :
    (text.map f).splitOn separator' = (text.splitOn separator).map (List.map f) := by
  induction text with
  | nil => rfl
  | cons head tail ih =>
      have same := agree head (by simp)
      have rest := ih fun x member => agree x (by simp [member])
      simp only [List.map_cons, List.splitOn_cons_eq_if_modifyHead, same, rest]
      split
      · rfl
      · cases tail.splitOn separator <;> rfl

theorem mem_of_mem_splitOn [BEq α] {separator : α} {piece : List α}
    (member : piece ∈ text.splitOn separator) : ∀ x ∈ piece, x ∈ text := by
  induction text generalizing piece with
  | nil =>
      have empty : piece = [] := by simpa using member
      simp [empty]
  | cons head tail ih =>
      rw [List.splitOn_cons_eq_if_modifyHead] at member
      split at member
      · rcases List.mem_cons.mp member with rfl | member
        · simp
        · exact fun x inside => List.mem_cons_of_mem _ (ih member x inside)
      · cases pieces : tail.splitOn separator with
        | nil => exact absurd pieces (List.splitOn_ne_nil separator tail)
        | cons first others =>
            simp only [pieces, List.modifyHead_cons, List.mem_cons] at member ih
            rcases member with rfl | member
            · intro x inside
              rcases List.mem_cons.mp inside with rfl | inside
              · simp
              · exact List.mem_cons_of_mem _ (ih (.inl rfl) x inside)
            · exact fun x inside => List.mem_cons_of_mem _ (ih (.inr member) x inside)

theorem fields_map_of_agree [BEq α] [BEq β] {separator : α} {separator' : β}
    (separators : ∀ x ∈ text, (f x == separator') = (x == separator))
    (blanks : ∀ x ∈ text, blank' (f x) = blank x) :
    fields separator' blank' (text.map f) = (fields separator blank text).map (List.map f) := by
  have trimmed : ((text.splitOn separator).map (List.map f)).map (trim blank') =
      ((text.splitOn separator).map (trim blank)).map (List.map f) := by
    simp only [List.map_map]
    apply List.map_congr_left
    intro piece member
    exact trim_map_of_agree fun x inside => blanks x (mem_of_mem_splitOn member x inside)
  have emptiness : ((fun piece : List β => !piece.isEmpty) ∘ List.map f) =
      fun piece => !piece.isEmpty := by
    funext piece
    cases piece <;> rfl
  rw [fields, splitOn_map_of_agree separators, trimmed, List.filter_map, emptiness]
  rfl

end Transport

end Filehost.Data.Fields
