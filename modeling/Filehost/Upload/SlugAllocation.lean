import Filehost.Store.Sharing
import Filehost.Upload.LinkTargets
import Mathlib.Data.List.MinMax

namespace Filehost.Upload

open Filehost.Database Filehost.Store

/-! # Drawing slugs comes to an end

A candidate is at least as long as its random string.  Once that is longer than every
active slug, the candidate is free. -/

def longestActive (table : Uploads) : Nat :=
  ((table.rows.filter Upload.active).map fun row => row.slug.length).foldr max 0

/-- What `random_string` answers to the loop, each time with the length it is asked for. -/
def drawsFor (random : Nat → Nat → List Char) : Nat → Nat → Nat × Nat → List (Option (List Char))
  | 0, _, _ => []
  | candidates + 1, index, (idLen, attempt) =>
      some (random index idLen) ::
        drawsFor random candidates (index + 1) (nextAttempt idLen attempt)

variable {collation : Collation} {settings : SlugSettings} {table : Uploads}
  {request : SlugRequest}

theorem length_le_candidate (settings : SlugSettings) (request : SlugRequest) (draw : List Char) :
    draw.length ≤ (request.candidate settings draw).length := by
  have base : draw.length ≤
      (slugBase settings request.originalName request.keepName draw).length := by
    unfold slugBase
    split
    · simp
      omega
    · exact Nat.le_refl _
  rw [SlugRequest.candidate, buildSlug_eq]
  cases slugExtension settings request.originalName request.ctSubtype with
  | none => exact base
  | some ext =>
      rw [withExtension, List.length_append]
      omega

theorem length_le_longestActive {row : Upload} (member : row ∈ table.rows)
    (active : row.active = true) : row.slug.length ≤ longestActive table := by
  have chosen : row ∈ table.rows.filter Upload.active := List.mem_filter.mpr ⟨member, active⟩
  have listed : row.slug.length ∈
      (table.rows.filter Upload.active).map fun row => row.slug.length :=
    List.mem_map.mpr ⟨row, chosen, rfl⟩
  exact List.le_max_of_le' 0 listed (Nat.le_refl _)

/-- Equal slugs have equal length. -/
def SameLength (collation : Collation) : Prop :=
  ∀ left right, collation.equal left right = true → left.length = right.length

theorem free_of_long (sized : SameLength collation) {slug : List Char}
    (long : longestActive table < slug.length) : table.isSlugTaken collation slug = false := by
  refine List.any_eq_false.mpr fun row member taken => ?_
  obtain ⟨equal, active⟩ := Bool.and_eq_true_iff.mp taken
  have bound := length_le_longestActive member active
  rw [sized _ _ equal] at bound
  omega

/-- Each candidate that is taken brings the loop closer to a length that no slug has. -/
theorem allocate_within (sized : SameLength collation) {random : Nat → Nat → List Char}
    (requested : ∀ index length, (random index length).length = length) {left idLen attempt : Nat}
    (index : Nat) (attempts : attempt < maxSlugAttempts)
    (bound : maxSlugAttempts * (longestActive table + 1 - idLen) ≤ left + attempt) :
    ∃ candidates ≤ left + 1, ∃ slug,
      allocateUniqueSlug collation settings table request idLen attempt
          (drawsFor random candidates index (idLen, attempt)) = some (.ok slug) ∧
        table.isSlugTaken collation slug = false ∧ idLen ≤ slug.length := by
  induction left generalizing idLen attempt index with
  | zero =>
      have long := length_le_candidate settings request (random index idLen)
      rw [requested] at long
      have longer : longestActive table <
          (request.candidate settings (random index idLen)).length := by
        unfold maxSlugAttempts at *
        omega
      have free := free_of_long sized longer
      refine ⟨1, Nat.le_refl _, request.candidate settings (random index idLen), ?_, free, long⟩
      simp [drawsFor, allocateUniqueSlug, free]
  | succ left ih =>
      have long := length_le_candidate settings request (random index idLen)
      rw [requested] at long
      cases taken : table.isSlugTaken collation (request.candidate settings (random index idLen)) with
      | false =>
          refine ⟨1, by omega, request.candidate settings (random index idLen), ?_, taken, long⟩
          simp [drawsFor, allocateUniqueSlug, taken]
      | true =>
          have next : (nextAttempt idLen attempt).2 < maxSlugAttempts ∧
              maxSlugAttempts * (longestActive table + 1 - (nextAttempt idLen attempt).1) ≤
                left + (nextAttempt idLen attempt).2 ∧ idLen ≤ (nextAttempt idLen attempt).1 := by
            unfold nextAttempt maxSlugAttempts at *
            split <;> omega
          obtain ⟨candidates, few, slug, allocated, free, length⟩ :=
            ih (index + 1) next.1 next.2.1
          refine ⟨candidates + 1, by omega, slug, ?_, free, next.2.2.trans length⟩
          simpa [drawsFor, allocateUniqueSlug, taken] using allocated

/-- Whatever strings are drawn, of the lengths that are asked for, the loop ends after so
many candidates with a slug that is free and long enough. -/
theorem allocateUniqueSlug_ends (sized : SameLength collation) {random : Nat → Nat → List Char}
    (requested : ∀ index length, (random index length).length = length) (idLen : Nat) :
    ∃ candidates ≤ 3 * (longestActive table + 1) + 1, ∃ slug,
      allocateUniqueSlug collation settings table request idLen 0
          (drawsFor random candidates 0 (idLen, 0)) = some (.ok slug) ∧
        table.isSlugTaken collation slug = false ∧ idLen ≤ slug.length := by
  refine allocate_within sized requested 0 (by decide) ?_
  unfold maxSlugAttempts
  omega

theorem sameLength_binary : SameLength .binary := by
  intro left right equal
  have weights : left.map Char.toNat = right.map Char.toNat := of_decide_eq_true equal
  simpa using congrArg List.length weights

def oneSlug : Uploads := ⟨[emptyUpload firstUuid 0 "aaa"], List.nodup_singleton _⟩

/-- A table with one slug of three characters, and draws that never vary. -/
theorem allocateUniqueSlug_ends_one :
    ∃ candidates ≤ 3 * (longestActive oneSlug + 1) + 1, ∃ slug,
      allocateUniqueSlug .binary ⟨false, 7, Char.isAlphanum⟩
          oneSlug ⟨"notes".toList, none, false⟩ 3 0
          (drawsFor (fun _ length => List.replicate length 'a') candidates 0 (3, 0)) =
        some (.ok slug) ∧
      oneSlug.isSlugTaken .binary slug = false ∧
        3 ≤ slug.length :=
  allocateUniqueSlug_ends sameLength_binary (fun _ _ => List.length_replicate) 3

end Filehost.Upload
