import Filehost.Database.Uploads
import Filehost.Ip.Address

namespace Filehost.Store

open Filehost.Database Filehost.Ip

/-! # Deleting uploads -/

structure Storage where
  uploads : Uploads
  files : FileSystem

def Storage.empty : Storage := ⟨.empty, fun _ => none⟩

/-- What the code below takes from its settings and its libraries: where files
are kept, how text columns compare, the content hash, and how many links a
reader follows. -/
structure StoreEnv where
  root : Path
  collation : Collation
  blake3 : List UInt8 → List UInt8
  hops : Nat

def emptyDigest : List UInt8 :=
  [0xaf, 0x13, 0x49, 0xb9, 0xf5, 0xf9, 0xa1, 0xa6, 0xa0, 0x40, 0x4d, 0xea, 0x36, 0xdc, 0xc9, 0x49,
    0x9b, 0xcb, 0x25, 0xc9, 0xad, 0xc1, 0x12, 0xb7, 0xcc, 0x9a, 0x93, 0xca, 0xe4, 0x1f, 0x32, 0x62]

def plainEnv : StoreEnv where
  root := ["files".toList]
  collation := .binary
  blake3 _ := emptyDigest
  hops := 40

inductive DeleteTarget where
  | expired
  | byId (id : Uuid)
  | bySlug (slug : List Char)
  | byIp (ip : IpAddr)
  | byIpRange (start stop : IpAddr)

def DeleteTarget.whereClause (env : StoreEnv) (now : Int) : DeleteTarget → Upload → Bool
  | .expired, row => row.expiryTimestamp ≤ now
  | .byId id, row => row.id = id
  | .bySlug slug, row => env.collation.equal row.slug slug
  | .byIp ip, row => row.uploaderIp = toDbBytes ip
  | .byIpRange start stop, row => toDbBytes start ≤ row.uploaderIp && row.uploaderIp ≤ toDbBytes stop

def DeleteTarget.wellFormed : DeleteTarget → Bool
  | .byIpRange start stop => sameFamily start stop
  | _ => true

/-- Which steps fail: the query that selects the rows, and for each row the
removal of its file and its connection or `UPDATE`. -/
structure DeleteFaults where
  select : Bool
  removal : Uuid → Bool
  statement : Uuid → Bool

def DeleteFaults.none : DeleteFaults := ⟨false, fun _ => false, fun _ => false⟩

/-- A file that cannot be removed is only logged; an error of the database is
returned. -/
def deleteOne (env : StoreEnv) (faults : DeleteFaults) (now : Int) (storage : Storage)
    (row : Upload) : Storage × Bool :=
  let path := uuidToPath env.root row.id
  let files :=
    if faults.removal row.id then storage.files
    else (storage.files.removeFile path).getD storage.files
  if faults.statement row.id then ({ storage with files }, false)
  else ({ uploads := storage.uploads.setDeleted row.id now, files }, true)

def deleteRows (env : StoreEnv) (faults : DeleteFaults) (now : Int) :
    List Upload → Storage → Storage × Bool
  | [], storage => (storage, true)
  | row :: rest, storage =>
      match deleteOne env faults now storage row with
      | (after, true) => deleteRows env faults now rest after
      | (after, false) => (after, false)

def selectedRows (env : StoreEnv) (target : DeleteTarget) (now : Int) (storage : Storage) :
    List Upload :=
  storage.uploads.rows.filter fun row => target.whereClause env now row && row.active

def deleteMatching (env : StoreEnv) (faults : DeleteFaults) (target : DeleteTarget) (now : Int)
    (storage : Storage) : Storage × Option Nat :=
  if !target.wellFormed || faults.select then (storage, none)
  else
    let rows := selectedRows env target now storage
    match deleteRows env faults now rows storage with
    | (after, true) => (after, some rows.length)
    | (after, false) => (after, none)

/-- The rows the loop comes to, the one it stops at included. -/
def reached (faults : DeleteFaults) : List Upload → List Upload
  | [] => []
  | row :: rest => if faults.statement row.id then [row] else row :: reached faults rest

def handledRows (env : StoreEnv) (faults : DeleteFaults) (target : DeleteTarget) (now : Int)
    (storage : Storage) : List Upload :=
  if !target.wellFormed || faults.select then []
  else reached faults (selectedRows env target now storage)

def removedPaths (env : StoreEnv) (faults : DeleteFaults) (rows : List Upload) : List Path :=
  (rows.filter fun row => !faults.removal row.id).map fun row => uuidToPath env.root row.id

def markedIds (faults : DeleteFaults) (rows : List Upload) : List Uuid :=
  (rows.filter fun row => !faults.statement row.id).map Upload.id

variable (env : StoreEnv) (faults : DeleteFaults) (now : Int)

theorem removeFile_getD (files : FileSystem) (path : Path) :
    (files.removeFile path).getD files = files.without [path] := by
  funext other
  unfold FileSystem.removeFile FileSystem.without
  by_cases same : other = path
  · subst same
    cases found : files other <;> simp [found]
  · split <;> simp [same]

theorem FileSystem.without_without (files : FileSystem) (first second : List Path) :
    (files.without first).without second = files.without (first ++ second) := by
  funext path
  by_cases inFirst : path ∈ first <;> by_cases inSecond : path ∈ second <;>
    simp [FileSystem.without, inFirst, inSecond]

theorem removeOne_files (storage : Storage) (row : Upload) :
    (if faults.removal row.id then storage.files
      else (storage.files.removeFile (uuidToPath env.root row.id)).getD storage.files) =
      storage.files.without (removedPaths env faults [row]) := by
  cases failed : faults.removal row.id <;>
    simp [removedPaths, failed, removeFile_getD, FileSystem.without_nil]

theorem deleteRows_of_failed {row : Upload} (failed : faults.statement row.id = true)
    (rest : List Upload) (storage : Storage) :
    deleteRows env faults now (row :: rest) storage =
      (⟨storage.uploads, storage.files.without (removedPaths env faults [row])⟩, false) := by
  simp only [deleteRows, deleteOne, failed, if_true, removeOne_files]

theorem deleteRows_of_done {row : Upload} (done : faults.statement row.id = false)
    (rest : List Upload) (storage : Storage) :
    deleteRows env faults now (row :: rest) storage =
      deleteRows env faults now rest ⟨storage.uploads.setDeleted row.id now,
        storage.files.without (removedPaths env faults [row])⟩ := by
  simp only [deleteRows, deleteOne, done, Bool.false_eq_true, if_false, removeOne_files]

theorem reached_of_failed {row : Upload} (failed : faults.statement row.id = true)
    (rest : List Upload) : reached faults (row :: rest) = [row] :=
  if_pos failed

theorem reached_of_done {row : Upload} (done : faults.statement row.id = false)
    (rest : List Upload) : reached faults (row :: rest) = row :: reached faults rest := by
  simp [reached, done]

theorem removedPaths_cons (row : Upload) (rows : List Upload) :
    removedPaths env faults (row :: rows) =
      removedPaths env faults [row] ++ removedPaths env faults rows := by
  unfold removedPaths
  rw [← List.map_append, ← List.filter_append]
  rfl

theorem markedIds_of_failed {row : Upload} (failed : faults.statement row.id = true) :
    markedIds faults [row] = [] := by
  simp [markedIds, failed]

theorem markedIds_of_done {row : Upload} (done : faults.statement row.id = false)
    (rows : List Upload) : markedIds faults (row :: rows) = row.id :: markedIds faults rows := by
  simp [markedIds, done]

variable {env faults} in
theorem mem_removedPaths {rows : List Upload} {id : Uuid} :
    uuidToPath env.root id ∈ removedPaths env faults rows ↔
      id ∈ rows.map Upload.id ∧ faults.removal id = false := by
  simp only [removedPaths, List.mem_map, List.mem_filter, Bool.not_eq_true', uuidToPath_inj]
  constructor
  · intro listed
    obtain ⟨row, ⟨member, removed⟩, rfl⟩ := listed
    exact ⟨⟨row, member, rfl⟩, removed⟩
  · intro listed
    obtain ⟨⟨row, member, rfl⟩, removed⟩ := listed
    exact ⟨row, ⟨member, removed⟩, rfl⟩

variable {faults} in
theorem mem_markedIds {rows : List Upload} {id : Uuid} :
    id ∈ markedIds faults rows ↔ id ∈ rows.map Upload.id ∧ faults.statement id = false := by
  simp only [markedIds, List.mem_map, List.mem_filter, Bool.not_eq_true']
  constructor
  · intro listed
    obtain ⟨row, ⟨member, done⟩, rfl⟩ := listed
    exact ⟨⟨row, member, rfl⟩, done⟩
  · intro listed
    obtain ⟨⟨row, member, rfl⟩, done⟩ := listed
    exact ⟨row, ⟨member, done⟩, rfl⟩

theorem deleteRows_files (rows : List Upload) (storage : Storage) :
    (deleteRows env faults now rows storage).1.files =
      storage.files.without (removedPaths env faults (reached faults rows)) := by
  induction rows generalizing storage with
  | nil => exact FileSystem.without_nil.symm
  | cons row rest ih =>
      cases failed : faults.statement row.id with
      | true => rw [deleteRows_of_failed env faults now failed, reached_of_failed faults failed]
      | false =>
          rw [deleteRows_of_done env faults now failed, reached_of_done faults failed,
            removedPaths_cons env faults row (reached faults rest), ih, FileSystem.without_without]

theorem deleteRows_uploads (rows : List Upload) (storage : Storage) :
    (deleteRows env faults now rows storage).1.uploads =
      storage.uploads.setAllDeleted (markedIds faults (reached faults rows)) now := by
  induction rows generalizing storage with
  | nil => rfl
  | cons row rest ih =>
      cases failed : faults.statement row.id with
      | true =>
          rw [deleteRows_of_failed env faults now failed, reached_of_failed faults failed,
            markedIds_of_failed faults failed]
          rfl
      | false =>
          rw [deleteRows_of_done env faults now failed, reached_of_done faults failed,
            markedIds_of_done faults failed, ih]
          rfl

theorem deleteMatching_fst (target : DeleteTarget) (storage : Storage) :
    (deleteMatching env faults target now storage).1 =
      if !target.wellFormed || faults.select then storage
      else (deleteRows env faults now (selectedRows env target now storage) storage).1 := by
  unfold deleteMatching
  split
  · rfl
  · dsimp only
    split <;> simp [*]

theorem deleteMatching_files (target : DeleteTarget) (storage : Storage) :
    (deleteMatching env faults target now storage).1.files =
      storage.files.without
        (removedPaths env faults (handledRows env faults target now storage)) := by
  rw [deleteMatching_fst]
  unfold handledRows
  split
  · exact FileSystem.without_nil.symm
  · exact deleteRows_files env faults now _ storage

theorem deleteMatching_uploads (target : DeleteTarget) (storage : Storage) :
    (deleteMatching env faults target now storage).1.uploads =
      storage.uploads.setAllDeleted
        (markedIds faults (handledRows env faults target now storage)) now := by
  rw [deleteMatching_fst]
  unfold handledRows
  split
  · rfl
  · exact deleteRows_uploads env faults now _ storage

theorem deleteMatching_fades (target : DeleteTarget) (storage : Storage) :
    storage.uploads.Fades (deleteMatching env faults target now storage).1.uploads := by
  rw [deleteMatching_uploads]
  exact Uploads.fades_setAllDeleted _ _ _

theorem reached_subset (rows : List Upload) : reached faults rows ⊆ rows := by
  induction rows with
  | nil => exact List.Subset.refl _
  | cons row rest ih =>
      cases failed : faults.statement row.id with
      | true =>
          rw [reached_of_failed faults failed]
          exact List.cons_subset_cons _ (List.nil_subset _)
      | false =>
          rw [reached_of_done faults failed]
          exact List.cons_subset_cons _ ih

theorem handledRows_subset (target : DeleteTarget) (storage : Storage) :
    handledRows env faults target now storage ⊆ selectedRows env target now storage := by
  unfold handledRows
  split
  · exact List.nil_subset _
  · exact reached_subset faults _

variable {faults} in
theorem reached_of_statements (done : ∀ id, faults.statement id = false) (rows : List Upload) :
    reached faults rows = rows := by
  induction rows with
  | nil => rfl
  | cons row rest ih => rw [reached_of_done faults (done row.id), ih]

variable {faults} in
theorem handledRows_of_statements {target : DeleteTarget} (wellFormed : target.wellFormed = true)
    (selects : faults.select = false) (done : ∀ id, faults.statement id = false)
    (storage : Storage) :
    handledRows env faults target now storage = selectedRows env target now storage := by
  unfold handledRows
  rw [wellFormed, selects, reached_of_statements done]
  rfl

variable {env faults now} in
/-- Where the database does not fail, the active rows left are those the clause does not
select. -/
theorem mem_deleteMatching {target : DeleteTarget} (wellFormed : target.wellFormed = true)
    (selects : faults.select = false) (done : ∀ id, faults.statement id = false)
    {storage : Storage} {row : Upload} (active : row.active = true) :
    row ∈ (deleteMatching env faults target now storage).1.uploads.rows ↔
      row ∈ storage.uploads.rows ∧ target.whereClause env now row = false := by
  have fades := deleteMatching_fades env faults now target storage
  have marked (member : row ∈ storage.uploads.rows) :
      row.id ∈ markedIds faults (handledRows env faults target now storage) ↔
        target.whereClause env now row = true := by
    rw [handledRows_of_statements env now wellFormed selects done, mem_markedIds, selectedRows,
      and_iff_left (done row.id)]
    constructor
    · intro listed
      obtain ⟨other, found, same⟩ := List.mem_map.mp listed
      obtain ⟨otherMember, clause⟩ := List.mem_filter.mp found
      rw [Uploads.eq_of_same_id otherMember member same] at clause
      exact (Bool.and_eq_true_iff.mp clause).1
    · intro clause
      exact List.mem_map_of_mem (List.mem_filter.mpr ⟨member, by simp [clause, active]⟩)
  constructor
  · intro member
    have before := fades.mem member active
    have left : (deleteMatching env faults target now storage).1.uploads.isActive row.id = true :=
      Uploads.isActive_iff.mpr ⟨row, member, rfl, active⟩
    rw [deleteMatching_uploads, Uploads.isActive_setAllDeleted, marked before] at left
    exact ⟨before, Bool.eq_false_iff.mpr left.1⟩
  · rintro ⟨member, clause⟩
    rw [deleteMatching_uploads]
    refine Uploads.mem_setAllDeleted_of_other member fun listed => ?_
    rw [(marked member).mp listed] at clause
    cases clause

end Filehost.Store
