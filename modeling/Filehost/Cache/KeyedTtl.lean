import Filehost.Data.Instant
import Mathlib.Data.Finset.Basic
import Mathlib.Logic.Function.Basic

namespace Filehost.Cache

open Filehost.Data

/-! # The cache of values with a lifetime

`KeyedTtlCache` keeps a map behind a lock.  The models of its callers differ in what they
remember of a call; what a call does to the map and the lock is said here once. -/

structure Entry (ν : Type v) where
  fetchedAt : ℚ
  value : ν
deriving DecidableEq

abbrev Entries (κ : Type u) (ν : Type v) := κ → Option (Entry ν)

variable {κ : Type u} {ν : Type v}

def Entries.empty : Entries κ ν := fun _ => none

def Entries.lookup (entries : Entries κ ν) (ttl now : ℚ) (key : κ) : Option ν :=
  (entries key).bind fun entry =>
    if durationSince now entry.fetchedAt < ttl then some entry.value else none

/-- The entries within their lifetime. -/
def Entries.retain (entries : Entries κ ν) (ttl now : ℚ) : Entries κ ν := fun key =>
  (entries key).filter fun entry => durationSince now entry.fetchedAt < ttl

theorem Entries.lookup_eq_some {entries : Entries κ ν} {ttl now : ℚ} {key : κ} {value : ν}
    (found : entries.lookup ttl now key = some value) :
    ∃ entry, entries key = some entry ∧ entry.value = value ∧
      durationSince now entry.fetchedAt < ttl := by
  simp only [Entries.lookup, Option.bind_eq_some_iff] at found
  obtain ⟨entry, present, young⟩ := found
  split at young
  · exact ⟨entry, present, Option.some.inj young, ‹_›⟩
  · contradiction

theorem Entries.update_eq_some [DecidableEq κ] {entries : Entries κ ν} {key other : κ}
    {entry held : Entry ν} (found : Function.update entries key (some entry) other = some held) :
    other = key ∧ held = entry ∨ entries other = some held := by
  by_cases same : other = key
  · subst same
    rw [Function.update_self, Option.some.injEq] at found
    exact .inl ⟨rfl, found.symm⟩
  · rw [Function.update_of_ne same] at found
    exact .inr found

/-- What a look finds was there to be found before. -/
theorem Entries.lookup_of_later {entries : Entries κ ν} {ttl now later : ℚ} {key : κ} {value : ν}
    (ordered : now ≤ later) (found : entries.lookup ttl later key = some value) :
    entries.lookup ttl now key = some value := by
  obtain ⟨entry, present, rfl, young⟩ := Entries.lookup_eq_some found
  have younger : durationSince now entry.fetchedAt < ttl :=
    (max_le_max_right 0 (sub_le_sub_right ordered _)).trans_lt young
  rw [Entries.lookup, present, Option.bind_some, if_pos younger]

theorem Entries.lookup_update_ne [DecidableEq κ] {entries : Entries κ ν} {ttl now : ℚ}
    {key other : κ} {entry : Entry ν} (different : other ≠ key) :
    Entries.lookup (Function.update entries key (some entry)) ttl now other =
      entries.lookup ttl now other := by
  rw [Entries.lookup, Function.update_of_ne different, Entries.lookup]

theorem Entries.lookup_update [DecidableEq κ] {entries : Entries κ ν} {ttl now : ℚ} {key other : κ}
    {entry : Entry ν} {value : ν}
    (found : Entries.lookup (Function.update entries key (some entry)) ttl now other = some value) :
    other = key ∧ value = entry.value ∨
      other ≠ key ∧ entries.lookup ttl now other = some value := by
  by_cases same : other = key
  · obtain ⟨held, present, rfl, -⟩ := Entries.lookup_eq_some found
    rw [same, Function.update_self, Option.some.injEq] at present
    exact .inl ⟨same, present ▸ rfl⟩
  · rw [Entries.lookup_update_ne same] at found
    exact .inr ⟨same, found⟩

theorem Entries.retain_eq_some {entries : Entries κ ν} {ttl now : ℚ} {key : κ} {entry : Entry ν} :
    entries.retain ttl now key = some entry ↔
      entries key = some entry ∧ durationSince now entry.fetchedAt < ttl := by
  simp [Entries.retain, Option.filter_eq_some_iff]

theorem Entries.lookup_eq_retain (entries : Entries κ ν) (ttl now : ℚ) (key : κ) :
    entries.lookup ttl now key = (entries.retain ttl now key).map Entry.value := by
  rw [Entries.lookup, Entries.retain]
  cases entries key with
  | none => rfl
  | some entry =>
      by_cases young : durationSince now entry.fetchedAt < ttl <;> simp [Option.filter, young]

/-! ## The map and its lock -/

/-- The map, and the tasks that hold the lock. -/
structure KeyedTtlCache (κ : Type u) (ν : Type v) where
  entries : Entries κ ν
  readers : Finset Nat
  writer : Option Nat

namespace KeyedTtlCache

def new : KeyedTtlCache κ ν := ⟨.empty, ∅, none⟩

variable (cache : KeyedTtlCache κ ν)

def admitsReader : Prop := cache.writer = none

def admitsWriter : Prop := cache.writer = none ∧ cache.readers = ∅

def read (task : Nat) : KeyedTtlCache κ ν := { cache with readers := insert task cache.readers }

def write (task : Nat) : KeyedTtlCache κ ν := { cache with writer := some task }

def release (task : Nat) : KeyedTtlCache κ ν where
  entries := cache.entries
  readers := cache.readers.erase task
  writer := cache.writer.filter fun holder => holder ≠ task

variable {cache}

@[simp]
theorem write_writer {task : Nat} : (cache.write task).writer = some task := rfl

theorem release_writer_other {task other : Nat} (different : other ≠ task)
    (holds : cache.writer = some other) : (cache.release task).writer = some other := by
  simp [release, holds, Option.filter, different]

end KeyedTtlCache

/-- Where a call of `get_or_refresh` stands.  Of its fetch it remembers what its caller wants
remembered, and so of its answer. -/
inductive GetStage (φ : Type u) (α : Type v) where
  | started
  | reading
  | missed
  | writing
  | fetching (startedAt : ℚ)
  | fetched (fresh : φ)
  | retaining (fresh : φ)
  | answered (answer : α)
deriving DecidableEq

namespace KeyedTtlCache

variable [DecidableEq κ]

def insert (cache : KeyedTtlCache κ ν) (key : κ) (entry : Entry ν) : KeyedTtlCache κ ν :=
  { cache with entries := Function.update cache.entries key (some entry) }

@[simp]
theorem insert_writer {cache : KeyedTtlCache κ ν} {key : κ} {entry : Entry ν} :
    (cache.insert key entry).writer = cache.writer := rfl

/-- `get_or_refresh`, one operation at a time: the lookup under the read lock, the second lookup
under the write lock, the fetch, the insertion, the cleanup.  What `retain` compares while it walks
the map is compared at once: no other task holds the lock, and an entry that expires meanwhile
is found by no later lookup.  A fetch ends by itself. -/
def getOrRefresh (cache : KeyedTtlCache κ ν) (ttl now : ℚ) (task : Nat) (key : κ) (stored : φ → ν)
    (answer : ν → α) : GetStage φ α → GetStage φ α × KeyedTtlCache κ ν
  | .started => (.reading, cache.read task)
  | .reading =>
      match cache.entries.lookup ttl now key with
      | some value => (.answered (answer value), cache.release task)
      | none => (.missed, cache.release task)
  | .missed => (.writing, cache.write task)
  | .writing =>
      match cache.entries.lookup ttl now key with
      | some value => (.answered (answer value), cache.release task)
      | none => (.fetching now, cache)
  | .fetching startedAt => (.fetching startedAt, cache)
  | .fetched fresh => (.retaining fresh, cache.insert key ⟨now, stored fresh⟩)
  | .retaining fresh =>
      (.answered (answer (stored fresh)),
        { cache with entries := cache.entries.retain ttl now }.release task)
  | .answered value => (.answered value, cache)

def invalidate (cache : KeyedTtlCache κ ν) : KeyedTtlCache κ ν :=
  { cache with entries := .empty }

variable {cache : KeyedTtlCache κ ν} {ttl now : ℚ} {task : Nat} {key : κ} {stored : φ → ν}
  {answer : ν → α} {stage : GetStage φ α}

/-- A call takes the write lock from nobody. -/
theorem getOrRefresh_writer_other (free : stage = .missed → cache.writer = none) {other : Nat}
    (different : other ≠ task) (holds : cache.writer = some other) :
    (cache.getOrRefresh ttl now task key stored answer stage).2.writer = some other := by
  cases stage with
  | reading =>
      simp only [getOrRefresh]
      split
      · exact release_writer_other different holds
      · exact release_writer_other different holds
  | missed =>
      rw [free rfl] at holds
      cases holds
  | writing =>
      simp only [getOrRefresh]
      split
      · exact release_writer_other different holds
      · exact holds
  | retaining fresh => exact release_writer_other different holds
  | _ => exact holds

/-- A call adds nothing to the map but what it has fetched. -/
theorem getOrRefresh_entries {other : κ} {entry : Entry ν}
    (found : (cache.getOrRefresh ttl now task key stored answer stage).2.entries other =
      some entry) :
    cache.entries other = some entry ∨
      ∃ fresh, stage = .fetched fresh ∧ other = key ∧ entry = ⟨now, stored fresh⟩ := by
  cases stage with
  | reading =>
      simp only [getOrRefresh] at found
      split at found
      · exact .inl found
      · exact .inl found
  | writing =>
      simp only [getOrRefresh] at found
      split at found
      · exact .inl found
      · exact .inl found
  | fetched fresh =>
      rcases Entries.update_eq_some found with ⟨same, rfl⟩ | held
      · exact .inr ⟨fresh, rfl, same, rfl⟩
      · exact .inl held
  | retaining fresh => exact .inl (Entries.retain_eq_some.mp found).1
  | _ => exact .inl found

/-- What a look finds after a step of a call was found before, or fetched by it. -/
theorem getOrRefresh_lookup {other : κ} {value : ν}
    (found : (cache.getOrRefresh ttl now task key stored answer stage).2.entries.lookup ttl now
      other = some value) :
    cache.entries.lookup ttl now other = some value ∨
      ∃ fresh, stage = .fetched fresh ∧ other = key ∧ value = stored fresh := by
  obtain ⟨entry, present, rfl, young⟩ := Entries.lookup_eq_some found
  rcases getOrRefresh_entries present with held | ⟨fresh, fetched, same, rfl⟩
  · exact .inl (by rw [Entries.lookup, held, Option.bind_some, if_pos young])
  · exact .inr ⟨fresh, fetched, same, rfl⟩

end KeyedTtlCache

end Filehost.Cache
