import Mathlib.Data.List.Basic

namespace Filehost.Data.Selections

/-! Two ways to select from one list, of which one takes whatever the other does. -/

variable {α : Type u} {β : Type v} {f g : α → Option β} {items : List α}

theorem length_filterMap_le (covers : ∀ item ∈ items, g item ≠ none → f item ≠ none) :
    (items.filterMap g).length ≤ (items.filterMap f).length := by
  induction items with
  | nil => exact Nat.le_refl _
  | cons item items ih =>
      have later := ih fun other member => covers other (by simp [member])
      have covered := covers item (by simp)
      cases whole : g item with
      | none => cases part : f item <;> simp [whole, part] <;> omega
      | some entry =>
          cases part : f item with
          | none => exact absurd part (covered (by simp [whole]))
          | some entry => simp [whole, part, later]

/-- Two selections of which one never takes less are equal when they agree on every item. -/
theorem filterMap_eq_iff (covers : ∀ item ∈ items, g item ≠ none → f item ≠ none) :
    items.filterMap f = items.filterMap g ↔ ∀ item ∈ items, f item = g item := by
  constructor
  · intro equal
    induction items with
    | nil => simp
    | cons item items ih =>
        have coversLater := fun other member => covers other (List.mem_cons_of_mem item member)
        have later := length_filterMap_le coversLater
        have lengths := congrArg List.length equal
        cases part : f item with
        | none =>
            have none : g item = none := not_ne_iff.mp fun taken => covers item (by simp) taken part
            simp only [List.filterMap_cons, part, none] at equal
            simpa [part, none] using ih coversLater equal
        | some entry =>
            cases whole : g item with
            | none =>
                simp only [List.filterMap_cons, part, whole, List.length_cons] at lengths
                omega
            | some other =>
                simp only [List.filterMap_cons, part, whole, List.cons.injEq] at equal
                simpa [part, whole, equal.1] using ih coversLater equal.2
  · exact List.filterMap_congr

/-- Where no two items yield a result, it does not matter which is asked first. -/
theorem findSome?_perm {items others : List α} (perm : items.Perm others)
    (exclusive : items.Pairwise fun left right => f left = none ∨ f right = none) :
    items.findSome? f = others.findSome? f := by
  induction perm with
  | nil => rfl
  | cons item _ ih =>
      rw [List.findSome?_cons, List.findSome?_cons, ih exclusive.of_cons]
  | swap first second rest =>
      have apart := (List.pairwise_cons.mp exclusive).1 first List.mem_cons_self
      simp only [List.findSome?_cons]
      rcases apart with none | none <;> simp only [none]
  | trans earlier later ihEarlier ihLater =>
      have symmetric : ∀ left right : α, f left = none ∨ f right = none →
          f right = none ∨ f left = none := fun _ _ => Or.symm
      rw [ihEarlier exclusive]
      exact ihLater ((earlier.pairwise_iff (symmetric _ _)).mp exclusive)

end Filehost.Data.Selections
