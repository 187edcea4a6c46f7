import Mathlib.Data.List.Basic
import Mathlib.Data.List.Nodup
import Mathlib.Data.List.Sort

namespace Filehost.Data.Registers

/-! # Registers

Rows are entered under their key and struck by it.  The first row entered under a key
stands until the key is struck. -/

inductive Change (Key Row : Type) where
  | enter (row : Row)
  | strike (key : Key)

variable {Key Row : Type} (keyOf : Row → Key)

/-- A list of rows after a change. -/
def apply [DecidableEq Key] (change : Change Key Row) (rows : List Row) : List Row :=
  match change with
  | .enter row => if rows.any fun other => keyOf other = keyOf row then rows else rows ++ [row]
  | .strike key => rows.filter fun row => keyOf row ≠ key

/-- The list that changes leave, which are newest first. -/
def replay [DecidableEq Key] : List (Change Key Row) → List Row
  | [] => []
  | change :: older => apply keyOf change (replay older)

/-- Every row that was entered under the key has been struck since. -/
def Vacant (changes : List (Change Key Row)) (key : Key) : Prop :=
  ∀ newer older row, changes = newer ++ .enter row :: older → keyOf row = key →
    .strike key ∈ newer

/-- The row was entered when its key was vacant, and the key has not been struck since. -/
def Stands (changes : List (Change Key Row)) (row : Row) : Prop :=
  ∃ newer older, changes = newer ++ .enter row :: older ∧ .strike (keyOf row) ∉ newer ∧
    Vacant keyOf older (keyOf row)

variable {keyOf} {changes : List (Change Key Row)} {row other : Row} {key : Key}

theorem vacant_nil : Vacant keyOf ([] : List (Change Key Row)) key := by
  intro newer older row same
  simp at same

theorem vacant_enter : Vacant keyOf (.enter row :: changes) key ↔
    keyOf row ≠ key ∧ Vacant keyOf changes key := by
  constructor
  · intro vacant
    refine ⟨fun same => ?_, fun newer older entered split same => ?_⟩
    · simpa using vacant [] changes row rfl same
    · have struck := vacant (.enter row :: newer) older entered (by rw [split]; rfl) same
      simpa using struck
  · intro holds newer older entered split same
    obtain ⟨different, vacant⟩ := holds
    cases newer with
    | nil =>
        cases split
        exact absurd same different
    | cons change newer =>
        cases split
        exact List.mem_cons_of_mem _ (vacant newer older entered rfl same)

theorem vacant_strike {struck : Key} : Vacant keyOf (.strike struck :: changes) key ↔
    struck = key ∨ Vacant keyOf changes key := by
  constructor
  · intro vacant
    by_cases same : struck = key
    · exact .inl same
    · refine .inr fun newer older entered split equal => ?_
      have found := vacant (.strike struck :: newer) older entered (by rw [split]; rfl) equal
      rcases List.mem_cons.mp found with first | later
      · cases first
        exact absurd rfl same
      · exact later
  · intro holds newer older entered split same
    cases newer with
    | nil => cases split
    | cons change newer =>
        cases split
        rcases holds with rfl | vacant
        · exact List.mem_cons_self
        · exact List.mem_cons_of_mem _ (vacant newer older entered rfl same)

theorem not_stands_nil : ¬Stands keyOf [] row := by
  intro stands
  obtain ⟨newer, older, split, -⟩ := stands
  simp at split

theorem stands_enter : Stands keyOf (.enter other :: changes) row ↔
    Stands keyOf changes row ∨ row = other ∧ Vacant keyOf changes (keyOf row) := by
  constructor
  · intro stands
    obtain ⟨newer, older, split, kept, vacant⟩ := stands
    cases newer with
    | nil =>
        cases split
        exact .inr ⟨rfl, vacant⟩
    | cons change newer =>
        cases split
        exact .inl ⟨newer, older, rfl, fun struck => kept (List.mem_cons_of_mem _ struck), vacant⟩
  · intro holds
    rcases holds with ⟨newer, older, rfl, kept, vacant⟩ | ⟨rfl, vacant⟩
    · exact ⟨.enter other :: newer, older, rfl, by simpa using kept, vacant⟩
    · exact ⟨[], changes, rfl, List.not_mem_nil, vacant⟩

theorem stands_strike : Stands keyOf (.strike key :: changes) row ↔
    Stands keyOf changes row ∧ keyOf row ≠ key := by
  constructor
  · intro stands
    obtain ⟨newer, older, split, kept, vacant⟩ := stands
    cases newer with
    | nil => cases split
    | cons change newer =>
        cases split
        rw [List.mem_cons, not_or] at kept
        exact ⟨⟨newer, older, rfl, kept.2, vacant⟩, fun same => kept.1 (by rw [same])⟩
  · intro holds
    obtain ⟨⟨newer, older, rfl, kept, vacant⟩, different⟩ := holds
    refine ⟨.strike key :: newer, older, rfl, ?_, vacant⟩
    rw [List.mem_cons, not_or]
    exact ⟨fun same => different (by cases same; rfl), kept⟩

/-! ## The list and the register -/

/-- The list holds the rows that stand. -/
structure Keeps (keyOf : Row → Key) (rows : List Row) (changes : List (Change Key Row)) : Prop where
  distinct : (rows.map keyOf).Nodup
  mem_iff : ∀ row, row ∈ rows ↔ Stands keyOf changes row
  vacant_iff : ∀ key, key ∉ rows.map keyOf ↔ Vacant keyOf changes key

variable {rows : List Row}

/-- No two rows stand under one key. -/
theorem Keeps.unique (keeps : Keeps keyOf rows changes) (left : row ∈ rows) (right : other ∈ rows)
    (same : keyOf row = keyOf other) : row = other :=
  List.inj_on_of_nodup_map keeps.distinct left right same

section Sheets

variable [LinearOrder Key]

/-- `ORDER BY` the key. -/
def sheet (keyOf : Row → Key) (rows : List Row) : List Row :=
  rows.insertionSort fun left right => keyOf left ≤ keyOf right

/-- Each row that stands is shown once, in the order of the keys. -/
structure Shows (keyOf : Row → Key) (shown : List Row) (changes : List (Change Key Row)) : Prop where
  mem_iff : ∀ row, row ∈ shown ↔ Stands keyOf changes row
  ascending : shown.Pairwise fun earlier later => keyOf earlier < keyOf later

theorem Keeps.shows (keeps : Keeps keyOf rows changes) : Shows keyOf (sheet keyOf rows) changes := by
  have perm := List.perm_insertionSort (fun left right => keyOf left ≤ keyOf right) rows
  have transitive : IsTrans Row fun left right => keyOf left ≤ keyOf right :=
    ⟨fun _ _ _ => le_trans⟩
  have total : Std.Total fun left right : Row => keyOf left ≤ keyOf right :=
    ⟨fun left right => le_total (keyOf left) (keyOf right)⟩
  refine ⟨fun row => perm.mem_iff.trans (keeps.mem_iff row), ?_⟩
  have sorted := List.pairwise_insertionSort (fun left right => keyOf left ≤ keyOf right) rows
  have distinct : ((sheet keyOf rows).map keyOf).Nodup :=
    ((perm.map keyOf).nodup_iff).mpr keeps.distinct
  exact sorted.imp₂ (fun _ _ below apart => lt_of_le_of_ne below apart)
    (List.pairwise_map.mp distinct)

end Sheets

section Changes

variable [DecidableEq Key]

theorem any_iff : (rows.any fun other => keyOf other = keyOf row) = true ↔
    keyOf row ∈ rows.map keyOf := by
  simp

theorem Keeps.enter (keeps : Keeps keyOf rows changes) (row : Row) :
    Keeps keyOf (apply keyOf (.enter row) rows) (.enter row :: changes) := by
  unfold apply
  dsimp only
  split
  · rename_i occupied
    have present := any_iff.mp occupied
    have held : ¬Vacant keyOf changes (keyOf row) := fun vacant =>
      (keeps.vacant_iff _).mpr vacant present
    refine ⟨keeps.distinct, fun other => ?_, fun key => ?_⟩
    · rw [stands_enter, keeps.mem_iff]
      constructor
      · exact .inl
      · intro holds
        rcases holds with stands | ⟨rfl, vacant⟩
        · exact stands
        · exact absurd vacant held
    · rw [vacant_enter, ← keeps.vacant_iff]
      constructor
      · exact fun absent => ⟨fun same => absent (same ▸ present), absent⟩
      · exact And.right
  · rename_i free
    have absent := mt any_iff.mpr free
    refine ⟨?_, fun other => ?_, fun key => ?_⟩
    · rw [List.map_append, List.nodup_append]
      refine ⟨keeps.distinct, List.nodup_singleton _, fun left listed right single same => ?_⟩
      rw [List.map_singleton, List.mem_singleton] at single
      exact absent (single ▸ same ▸ listed)
    · rw [stands_enter, List.mem_append, List.mem_singleton, keeps.mem_iff]
      constructor
      · intro holds
        rcases holds with stands | rfl
        · exact .inl stands
        · exact .inr ⟨rfl, (keeps.vacant_iff _).mp absent⟩
      · exact fun holds => holds.imp_right And.left
    · rw [vacant_enter, List.map_append, List.map_singleton, List.mem_append, not_or,
        List.mem_singleton, keeps.vacant_iff, and_comm, ne_comm, ne_eq]

theorem Keeps.strike (keeps : Keeps keyOf rows changes) (key : Key) :
    Keeps keyOf (apply keyOf (.strike key) rows) (.strike key :: changes) := by
  unfold apply
  refine ⟨(keeps.distinct.sublist (List.filter_sublist.map _)), fun other => ?_, fun other => ?_⟩
  · rw [stands_strike, List.mem_filter, decide_eq_true_iff, keeps.mem_iff]
  · rw [vacant_strike, ← keeps.vacant_iff, List.mem_map, List.mem_map]
    constructor
    · intro absent
      by_cases same : key = other
      · exact .inl same
      · refine .inr fun found => absent ?_
        obtain ⟨row, member, rfl⟩ := found
        exact ⟨row, List.mem_filter.mpr ⟨member, decide_eq_true (Ne.symm same)⟩, rfl⟩
    · intro holds found
      obtain ⟨row, member, rfl⟩ := found
      obtain ⟨listed, different⟩ := List.mem_filter.mp member
      rcases holds with rfl | absent
      · exact of_decide_eq_true different rfl
      · exact absent ⟨row, listed, rfl⟩

theorem keeps_replay (keyOf : Row → Key) (changes : List (Change Key Row)) :
    Keeps keyOf (replay keyOf changes) changes := by
  induction changes with
  | nil =>
      refine ⟨List.nodup_nil, fun row => ?_, fun key => ?_⟩
      · exact iff_of_false List.not_mem_nil not_stands_nil
      · exact iff_of_true List.not_mem_nil vacant_nil
  | cons change older ih =>
      cases change with
      | enter row => exact ih.enter row
      | strike key => exact ih.strike key

end Changes

end Filehost.Data.Registers
