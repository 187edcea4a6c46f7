import Filehost.Data.Paging
import Mathlib.Algebra.BigOperators.Group.List.Basic
import Mathlib.Algebra.Order.BigOperators.Group.List
import Mathlib.Algebra.Order.Ring.Int
import Mathlib.Data.List.Dedup

namespace Filehost.Data.Tallies

open Filehost.Data.Paging

/-! # Groups and their leaders

The answer to a query that groups rows by a key, sorts the groups by their size and
keeps the largest. -/

structure Group (Row Key : Type) where
  key : Key
  members : List Row

namespace Group

variable {Row Key : Type}

def count (group : Group Row Key) : Nat := group.members.length

def total (weight : Row → Int) (group : Group Row Key) : Int := (group.members.map weight).sum

theorem total_one (group : Group Row Key) : group.total (fun _ => 1) = group.count := by
  simp [total, count]

end Group

variable {Row Key : Type} [DecidableEq Key] {key : Row → Key} {rows : List Row} {weight : Row → Int}

def groupOf (key : Row → Key) (rows : List Row) (value : Key) : Group Row Key :=
  ⟨value, rows.filter fun row => key row = value⟩

/-- `GROUP BY key`. -/
def groups (key : Row → Key) (rows : List Row) : List (Group Row Key) :=
  (rows.map key).dedup.map (groupOf key rows)

/-- `ORDER BY COUNT(*) DESC LIMIT limit`, for a database that sorts as `sorting` does. -/
def leaders (key : Row → Key) (sorting : Sorting (@Group.count Row Key))
    (limit : Nat) (rows : List Row) : List (Group Row Key) :=
  (sorting.arrange (groups key rows)).take limit

/-- The list shows the largest groups, whole and each once. -/
structure Leads (key : Row → Key) (rows : List Row) (limit : Nat)
    (listed : List (Group Row Key)) : Prop where
  apart : (listed.map Group.key).Nodup
  whole : ∀ group ∈ listed, group = groupOf key rows group.key ∧ group.key ∈ rows.map key
  descending : listed.Pairwise fun earlier later => later.count ≤ earlier.count
  length : listed.length = min limit (rows.map key).dedup.length
  highest : ∀ row ∈ rows, key row ∉ listed.map Group.key → ∀ group ∈ listed,
    (groupOf key rows (key row)).count ≤ group.count

theorem map_key_groups : (groups key rows).map Group.key = (rows.map key).dedup := by
  rw [groups, List.map_map]
  exact List.map_id _

theorem mem_groups {group : Group Row Key} :
    group ∈ groups key rows ↔ group = groupOf key rows group.key ∧ group.key ∈ rows.map key := by
  rw [groups, List.mem_map]
  constructor
  · intro found
    obtain ⟨value, member, rfl⟩ := found
    exact ⟨rfl, List.mem_dedup.mp member⟩
  · intro found
    exact ⟨group.key, List.mem_dedup.mpr found.2, found.1.symm⟩

theorem sum_indicator {keys : List Key} (nodup : keys.Nodup) {value : Key} (member : value ∈ keys)
    (amount : Int) : (keys.map fun other => if value = other then amount else 0).sum = amount := by
  rw [List.sum_map_eq_nsmul_single value _ fun other apart _ => if_neg apart.symm,
    List.count_eq_one_of_mem nodup member, if_pos rfl, one_nsmul]

/-- Every row is in the group of its key and in no other. -/
theorem sum_totals {keys : List Key} (nodup : keys.Nodup) (covers : ∀ row ∈ rows, key row ∈ keys) :
    (keys.map fun value => (groupOf key rows value).total weight).sum = (rows.map weight).sum := by
  induction rows with
  | nil =>
      simp [groupOf, Group.total]
  | cons row rest ih =>
      have split (value : Key) : (groupOf key (row :: rest) value).total weight =
          (if key row = value then weight row else 0) + (groupOf key rest value).total weight := by
        unfold groupOf Group.total
        by_cases same : key row = value <;> simp [same]
      rw [List.map_congr_left fun value _ => split value, List.sum_map_add,
        sum_indicator nodup (covers row List.mem_cons_self),
        ih fun later member => covers later (List.mem_cons_of_mem _ member)]
      rfl

theorem sum_totals_groups : ((groups key rows).map (Group.total weight)).sum =
    (rows.map weight).sum := by
  rw [groups, List.map_map]
  exact sum_totals (List.nodup_dedup _) fun row member =>
    List.mem_dedup.mpr (List.mem_map_of_mem member)

section Leaders

variable {sorting : Sorting (@Group.count Row Key)} {limit : Nat}

theorem mem_arranged {group : Group Row Key} :
    group ∈ sorting.arrange (groups key rows) ↔
      group = groupOf key rows group.key ∧ group.key ∈ rows.map key :=
  (sorting.perm _).mem_iff.trans mem_groups

theorem leaders_lead : Leads key rows limit (leaders key sorting limit rows) := by
  have perm := sorting.perm (groups key rows)
  have sorted := sorting.descending (groups key rows)
  refine ⟨?_, ?_, sorted.sublist (List.take_sublist _ _), ?_, ?_⟩
  · refine List.Nodup.sublist ((List.take_sublist _ _).map _) ?_
    rw [(perm.map Group.key).nodup_iff, map_key_groups]
    exact List.nodup_dedup _
  · exact fun group member => mem_arranged.mp (List.mem_of_mem_take member)
  · rw [leaders, List.length_take, perm.length_eq, groups, List.length_map]
  · intro row member absent group listed
    have arranged : groupOf key rows (key row) ∈ sorting.arrange (groups key rows) :=
      mem_arranged.mpr ⟨rfl, List.mem_map_of_mem member⟩
    rw [← List.take_append_drop limit (sorting.arrange (groups key rows))] at arranged sorted
    rcases List.mem_append.mp arranged with kept | dropped
    · exact absurd (List.mem_map_of_mem kept) absent
    · exact (List.pairwise_append.mp sorted).2.2 group listed _ dropped

/-- What is shown adds up to no more than there is. -/
theorem sum_leaders_le (nonneg : ∀ row ∈ rows, 0 ≤ weight row) :
    ((leaders key sorting limit rows).map (Group.total weight)).sum ≤ (rows.map weight).sum := by
  rw [← @sum_totals_groups _ _ _ key, ← ((sorting.perm (groups key rows)).map _).sum_eq]
  rw [← List.take_append_drop limit (sorting.arrange (groups key rows)), List.map_append,
    List.sum_append]
  have rest : 0 ≤ (((sorting.arrange (groups key rows)).drop limit).map (Group.total weight)).sum := by
    apply List.sum_nonneg
    intro total shown
    obtain ⟨group, dropped, rfl⟩ := List.mem_map.mp shown
    rw [(mem_arranged.mp (List.mem_of_mem_drop dropped)).1]
    apply List.sum_nonneg
    intro value listed
    obtain ⟨row, member, rfl⟩ := List.mem_map.mp listed
    exact nonneg row (List.mem_filter.mp member).1
  rw [leaders]
  omega

/-- A list that has room for every key shows all there is. -/
theorem sum_leaders (room : (rows.map key).dedup.length ≤ limit) :
    ((leaders key sorting limit rows).map (Group.total weight)).sum = (rows.map weight).sum := by
  have whole : (sorting.arrange (groups key rows)).length ≤ limit := by
    rwa [(sorting.perm _).length_eq, groups, List.length_map]
  rw [leaders, List.take_of_length_le whole, ((sorting.perm (groups key rows)).map _).sum_eq,
    sum_totals_groups]

end Leaders

end Filehost.Data.Tallies
