import Filehost.Store.Reading
import Filehost.Store.Sharing

namespace Filehost.Database

open Filehost.Store

/-! # Hashes of stored uploads -/

namespace Uploads

/-- The listing has no `ORDER BY`: this is one order of it. -/
def uploadsMissingHash (table : Uploads) : List Uuid :=
  (table.rows.filter fun row => row.hash.isNone && row.active).map Upload.id

def withHash (hash : Option (List UInt8)) (row : Upload) : Upload := { row with hash }

theorem map_ids_withHash (rows : List Upload) (selects : Upload → Bool) (hash : Option (List UInt8)) :
    (rows.map fun row => if selects row then withHash hash row else row).map Upload.id =
      rows.map Upload.id := by
  rw [List.map_map]
  apply List.map_congr_left
  intro row _
  by_cases selected : selects row <;> simp [selected, withHash]

/-- `UPDATE uploads SET hash = ? WHERE …`. -/
def setHash (table : Uploads) (selects : Upload → Bool) (hash : Option (List UInt8)) : Uploads where
  rows := table.rows.map fun row => if selects row then withHash hash row else row
  distinct := by
    rw [map_ids_withHash]
    exact table.distinct

def updateUploadHash (table : Uploads) (id : Uuid) (hash : List UInt8) : Uploads :=
  table.setHash (fun row => row.id = id) (some hash)

/-- The migration to BLAKE3: `UPDATE uploads SET hash = NULL WHERE hash IS NOT NULL`. -/
def clearHashes (table : Uploads) : Uploads := table.setHash (fun row => row.hash.isSome) none

theorem mem_uploadsMissingHash {table : Uploads} {row : Upload} (member : row ∈ table.rows) :
    row.id ∈ table.uploadsMissingHash ↔ row.hash = none ∧ row.active = true := by
  simp only [uploadsMissingHash, List.mem_map, List.mem_filter, Bool.and_eq_true,
    Option.isNone_iff_eq_none]
  constructor
  · intro listed
    obtain ⟨other, ⟨otherMember, chosen⟩, same⟩ := listed
    rwa [← eq_of_same_id otherMember member same]
  · intro chosen
    exact ⟨row, ⟨member, chosen⟩, rfl⟩

end Uploads

end Filehost.Database

namespace Filehost.Store

open Filehost.Database

/-! # The rehash command -/

structure RehashFaults where
  reading : Uuid → Bool
  update : Uuid → Bool

structure RehashProgress where
  storage : Storage
  hashed : Nat
  skipped : Nat
  errors : Nat

def RehashProgress.start (storage : Storage) : RehashProgress := ⟨storage, 0, 0, 0⟩

/-- What `blake3` makes of the file, opened through its links. -/
def fileHash (env : StoreEnv) (faults : RehashFaults) (files : FileSystem) (id : Uuid) :
    Option (List UInt8) :=
  if faults.reading id then none
  else (files.read env.hops (uuidToPath env.root id)).map env.blake3

def rehashOne (env : StoreEnv) (faults : RehashFaults) (progress : RehashProgress) (id : Uuid) :
    RehashProgress :=
  match fileHash env faults progress.storage.files id with
  | none => { progress with skipped := progress.skipped + 1 }
  | some hash =>
      if faults.update id then { progress with errors := progress.errors + 1 }
      else
        { progress with
          storage :=
            { progress.storage with uploads := progress.storage.uploads.updateUploadHash id hash }
          hashed := progress.hashed + 1 }

/-- `listing` is the answer of `uploads_missing_hash`; its error ends the command. -/
def rehash (env : StoreEnv) (faults : RehashFaults) (listing : Option (List Uuid))
    (storage : Storage) : Option RehashProgress := do
  let ids ← listing
  return ids.foldl (rehashOne env faults) (.start storage)

/-! ## What a run does -/

/-- The hash that the run stores for an upload it is given. -/
def newHash (env : StoreEnv) (faults : RehashFaults) (files : FileSystem) (id : Uuid) :
    Option (List UInt8) :=
  if faults.update id then none else fileHash env faults files id

def rehashedRow (env : StoreEnv) (faults : RehashFaults) (files : FileSystem) (row : Upload) :
    Upload :=
  match newHash env faults files row.id with
  | none => row
  | some hash => Uploads.withHash (some hash) row

variable {env : StoreEnv} {faults : RehashFaults} {storage : Storage} {progress : RehashProgress}
  {ids : List Uuid} {files : FileSystem}

theorem rehashedRow_id (row : Upload) : (rehashedRow env faults files row).id = row.id := by
  unfold rehashedRow
  split <;> rfl

theorem rehashedRow_twice (row : Upload) :
    rehashedRow env faults files (rehashedRow env faults files row) =
      rehashedRow env faults files row := by
  unfold rehashedRow
  cases found : newHash env faults files row.id with
  | none => simp [found]
  | some hash => simp [found, Uploads.withHash]

theorem rehashOne_files (id : Uuid) :
    (rehashOne env faults progress id).storage.files = progress.storage.files := by
  unfold rehashOne
  split
  · rfl
  · split <;> rfl

theorem rehashedRow_of_none {row : Upload} (none : newHash env faults files row.id = none) :
    rehashedRow env faults files row = row := by
  rw [rehashedRow, none]

theorem map_rehashedRow_of_none {id : Uuid} (none : newHash env faults files id = none)
    (rows : List Upload) :
    (rows.map fun row => if row.id = id then rehashedRow env faults files row else row) = rows := by
  have unchanged : ∀ row ∈ rows,
      (if row.id = id then rehashedRow env faults files row else row) = row := by
    intro row _
    split
    · rename_i same
      exact rehashedRow_of_none (same ▸ none)
    · rfl
  rw [List.map_congr_left unchanged, List.map_id']

theorem rehashOne_rows (id : Uuid) :
    (rehashOne env faults progress id).storage.uploads.rows =
      progress.storage.uploads.rows.map fun row =>
        if row.id = id then rehashedRow env faults progress.storage.files row else row := by
  unfold rehashOne
  split
  · rename_i unread
    exact (map_rehashedRow_of_none (by simp [newHash, unread]) _).symm
  · rename_i hash read
    split
    · rename_i failed
      exact (map_rehashedRow_of_none (by simp [newHash, failed]) _).symm
    · rename_i done
      apply List.map_congr_left
      intro row _
      by_cases same : row.id = id
      · simp [rehashedRow, newHash, same, done, read]
      · simp [same]

theorem foldl_rehashOne_files (ids : List Uuid) :
    (ids.foldl (rehashOne env faults) progress).storage.files = progress.storage.files := by
  induction ids generalizing progress with
  | nil => rfl
  | cons id rest ih => exact ih.trans (rehashOne_files id)

theorem foldl_rehashOne_rows (ids : List Uuid) :
    (ids.foldl (rehashOne env faults) progress).storage.uploads.rows =
      progress.storage.uploads.rows.map fun row =>
        if row.id ∈ ids then rehashedRow env faults progress.storage.files row else row := by
  induction ids generalizing progress with
  | nil => simp
  | cons id rest ih =>
      rw [List.foldl_cons, ih, rehashOne_files, rehashOne_rows, List.map_map]
      apply List.map_congr_left
      intro row _
      by_cases same : row.id = id
      · by_cases later : row.id ∈ rest
        · simp [same, rehashedRow_id, rehashedRow_twice]
        · simp_all [rehashedRow_id]
      · simp [same]

theorem rehashOne_hashed (id : Uuid) :
    (rehashOne env faults progress id).hashed =
      progress.hashed + (newHash env faults progress.storage.files id).isSome.toNat := by
  unfold rehashOne newHash
  cases fileHash env faults progress.storage.files id with
  | none => cases faults.update id <;> rfl
  | some hash => cases faults.update id <;> rfl

theorem foldl_rehashOne_hashed (ids : List Uuid) :
    (ids.foldl (rehashOne env faults) progress).hashed = progress.hashed +
      ids.countP fun id => (newHash env faults progress.storage.files id).isSome := by
  induction ids generalizing progress with
  | nil => rfl
  | cons id rest ih =>
      rw [List.foldl_cons, ih, rehashOne_hashed, rehashOne_files, List.countP_cons]
      cases (newHash env faults progress.storage.files id).isSome
      · simp
      · simp only [Bool.toNat_true, if_true]
        omega

def RehashProgress.total (progress : RehashProgress) : Nat :=
  progress.hashed + progress.skipped + progress.errors

theorem rehashOne_total (id : Uuid) :
    (rehashOne env faults progress id).total = progress.total + 1 := by
  unfold rehashOne RehashProgress.total
  split
  · dsimp only
    omega
  · split <;> dsimp only <;> omega

theorem foldl_rehashOne_total (ids : List Uuid) :
    (ids.foldl (rehashOne env faults) progress).total = progress.total + ids.length := by
  induction ids generalizing progress with
  | nil => rfl
  | cons id rest ih =>
      rw [List.foldl_cons, ih, rehashOne_total, List.length_cons]
      omega

theorem rehashOne_of_none {id : Uuid} (none : newHash env faults progress.storage.files id = none) :
    (rehashOne env faults progress id).storage = progress.storage := by
  unfold newHash at none
  unfold rehashOne
  split
  · rfl
  · rename_i hash read
    split
    · rfl
    · rename_i done
      rw [if_neg done, read] at none
      cases none

theorem foldl_rehashOne_of_none (none : ∀ id ∈ ids, newHash env faults progress.storage.files id =
    none) : (ids.foldl (rehashOne env faults) progress).storage = progress.storage := by
  induction ids generalizing progress with
  | nil => rfl
  | cons id rest ih =>
      have first := rehashOne_of_none (none id List.mem_cons_self)
      rw [List.foldl_cons, ih, first]
      intro other member
      rw [first]
      exact none other (List.mem_cons_of_mem _ member)

theorem rehash_eq (ids : List Uuid) : rehash env faults (some ids) storage =
    some (ids.foldl (rehashOne env faults) (.start storage)) := rfl

theorem rehash_rows (listed : ids.Perm storage.uploads.uploadsMissingHash) :
    (ids.foldl (rehashOne env faults) (.start storage)).storage.uploads.rows =
      storage.uploads.rows.map fun row =>
        if row.hash = none ∧ row.active = true then rehashedRow env faults storage.files row
        else row := by
  rw [foldl_rehashOne_rows]
  apply List.map_congr_left
  intro row member
  have missing : row.id ∈ ids ↔ row.hash = none ∧ row.active = true :=
    listed.mem_iff.trans (Uploads.mem_uploadsMissingHash member)
  by_cases chosen : row.hash = none ∧ row.active = true
  · rw [if_pos chosen, if_pos (missing.mpr chosen)]
    rfl
  · rw [if_neg chosen, if_neg (mt missing.mp chosen)]

def RehashFaults.Faultless (faults : RehashFaults) : Prop :=
  ∀ id, faults.reading id = false ∧ faults.update id = false

theorem RehashFaults.Faultless.newHash (faultless : faults.Faultless) (id : Uuid) :
    newHash env faults files id = (files.read env.hops (uuidToPath env.root id)).map env.blake3 := by
  unfold Store.newHash fileHash
  rw [(faultless id).1, (faultless id).2]
  rfl

theorem newHash_of_unreadable {id : Uuid}
    (unreadable : files.read env.hops (uuidToPath env.root id) = none) :
    newHash env faults files id = none := by
  unfold newHash fileHash
  rw [unreadable]
  simp

/-- What a run without failures leaves unhashed cannot be read. -/
theorem unreadable_of_rehashed {id : Uuid} (faultless : faults.Faultless)
    (listed : ids.Perm storage.uploads.uploadsMissingHash)
    (missing : id ∈ (ids.foldl (rehashOne env faults)
      (.start storage)).storage.uploads.uploadsMissingHash) :
    storage.files.read env.hops (uuidToPath env.root id) = none := by
  obtain ⟨row, selected, rfl⟩ := List.mem_map.mp missing
  obtain ⟨member, chosen⟩ := List.mem_filter.mp selected
  rw [Bool.and_eq_true, Option.isNone_iff_eq_none] at chosen
  rw [rehash_rows listed] at member
  obtain ⟨before, -, rfl⟩ := List.mem_map.mp member
  split at chosen
  · rename_i original
    rw [if_pos original, rehashedRow_id]
    cases held : storage.files.read env.hops (uuidToPath env.root before.id) with
    | none => rfl
    | some content =>
        have hashed : rehashedRow env faults storage.files before =
            Uploads.withHash (some (env.blake3 content)) before := by
          rw [rehashedRow, faultless.newHash, held]
          rfl
        rw [hashed] at chosen
        cases chosen.1
  · rename_i original
    exact absurd chosen original

/-- In whatever order the uploads are listed and whatever fails, only missing hashes
of active uploads change, and each listed upload is counted once.  After a run
without failures another one changes nothing. -/
theorem rehash_settles (listed : ids.Perm storage.uploads.uploadsMissingHash) :
    ∃ done, rehash env faults (some ids) storage = some done ∧
      done.storage.files = storage.files ∧
      (done.storage.uploads.rows = storage.uploads.rows.map fun row =>
        if row.hash = none ∧ row.active = true then rehashedRow env faults storage.files row
        else row) ∧
      done.hashed = storage.uploads.uploadsMissingHash.countP
        (fun id => (newHash env faults storage.files id).isSome) ∧
      done.hashed + done.skipped + done.errors = storage.uploads.uploadsMissingHash.length ∧
      (faults.Faultless → ∀ laterFaults laterIds,
        laterIds.Perm done.storage.uploads.uploadsMissingHash →
          ∃ again, rehash env laterFaults (some laterIds) done.storage = some again ∧
            again.storage = done.storage ∧ again.hashed = 0) := by
  refine ⟨_, rehash_eq ids, foldl_rehashOne_files ids, rehash_rows listed, ?_, ?_, ?_⟩
  · rw [foldl_rehashOne_hashed, ← listed.countP_eq]
    exact Nat.zero_add _
  · rw [← listed.length_eq]
    exact (foldl_rehashOne_total ids).trans (Nat.zero_add _)
  · intro faultless laterFaults laterIds laterListed
    have nothing : ∀ id ∈ laterIds, newHash env laterFaults
        (ids.foldl (rehashOne env faults) (.start storage)).storage.files id = none := by
      intro id member
      rw [foldl_rehashOne_files]
      exact newHash_of_unreadable
        (unreadable_of_rehashed faultless listed (laterListed.mem_iff.mp member))
    refine ⟨_, rehash_eq laterIds, foldl_rehashOne_of_none nothing, ?_⟩
    rw [foldl_rehashOne_hashed]
    refine (Nat.zero_add _).trans (List.countP_eq_zero.mpr fun id member => ?_)
    have none := nothing id member
    rw [RehashProgress.start, none]
    exact Bool.false_ne_true

/-- One upload of a lost file and one of an empty file, neither with a hash. -/
def unhashedStorage : Storage where
  uploads :=
    { rows := [Uploads.withHash none (emptyUpload secondUuid 2 "def"),
        Uploads.withHash none (emptyUpload firstUuid 1 "abc")]
      distinct := by decide }
  files path := if path = uuidToPath plainEnv.root firstUuid then some (.file []) else none

theorem unhashedStorage_rehashed : ∃ done,
    rehash plainEnv ⟨fun _ => false, fun _ => false⟩ (some [secondUuid, firstUuid])
        unhashedStorage = some done ∧
      done.storage.uploads.rows.map Upload.hash = [none, some emptyDigest] ∧
      done.hashed + done.skipped + done.errors = 2 := by
  obtain ⟨done, ran, -, rows, -, total, -⟩ := @rehash_settles plainEnv
    ⟨fun _ => false, fun _ => false⟩ unhashedStorage [secondUuid, firstUuid] (.of_eq (by decide))
  refine ⟨done, ran, ?_, total⟩
  rw [rows]
  decide

end Filehost.Store
