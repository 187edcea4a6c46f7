import Filehost.Store.Lifecycle

namespace Filehost.Store

open Filehost.Data Filehost.Database

/-! # One upload over time

Its row lives on, and what can be read for it has the hash of what could be read
for it before.  Files that no row names do not matter. -/

structure Follows (env : StoreEnv) (before after : Storage) : Prop where
  rows : RowsLiveOn before.uploads.rows after.uploads.rows
  held : ∀ row ∈ before.uploads.rows, ∀ content,
    after.files.Holds (uuidToPath env.root row.id) content →
      ∃ earlier, before.files.Holds (uuidToPath env.root row.id) earlier ∧
        SameHash env earlier content

/-- A file at the path of an identifier that is not used, with whatever is in it. -/
def litter (env : StoreEnv) (id : Uuid) (left : List UInt8) (storage : Storage) : Storage :=
  { storage with
    files := Function.update storage.files (uuidToPath env.root id) (some (.file left)) }

variable {env : StoreEnv} {storage : Storage} {table : Uploads} {files : FileSystem}

theorem Follows.refl (storage : Storage) : Follows env storage storage :=
  ⟨.refl _, fun _ _ content held => ⟨content, held, rfl⟩⟩

theorem Follows.trans {first second third : Storage} (left : Follows env first second)
    (right : Follows env second third) : Follows env first third := by
  refine ⟨left.rows.trans right.rows, fun row member content held => ?_⟩
  obtain ⟨later, laterMember, lives⟩ := left.rows.later member
  rw [← lives.id] at held
  obtain ⟨middle, middleHeld, alike⟩ := right.held later laterMember content held
  rw [lives.id] at middleHeld
  obtain ⟨earlier, earlierHeld, same⟩ := left.held row member middle middleHeld
  exact ⟨earlier, earlierHeld, same.trans alike⟩

/-! ## One step -/

theorem LinksToUploads.read_litter {id : Uuid} {row : Upload} (linked : LinksToUploads env storage)
    (fresh : id ∉ storage.uploads.rows.map Upload.id) (member : row ∈ storage.uploads.rows)
    (left : List UInt8) (hops : Nat) :
    (litter env id left storage).files.read hops (uuidToPath env.root row.id) =
      storage.files.read hops (uuidToPath env.root row.id) := by
  have foreign : ∀ known ∈ storage.uploads.rows,
      uuidToPath env.root id ≠ uuidToPath env.root known.id := by
    intro known knownMember same
    exact fresh (List.mem_map.mpr ⟨known, knownMember, (uuidToPath_inj.mp same).symm⟩)
  exact FileSystem.read_update_of_unlinked (linked.unlinked foreign)
    (fun same => foreign row member same.symm) hops

theorem Honest.litter {id : Uuid} (honest : Honest env storage)
    (fresh : id ∉ storage.uploads.rows.map Upload.id) (left : List UInt8) :
    Honest env (Store.litter env id left storage) := by
  constructor
  · exact honest.linked.write fun _ link => by cases link
  · intro row member hash stored content held
    obtain ⟨hops, readable⟩ := held
    rw [honest.linked.read_litter fresh member] at readable
    exact honest.hashes row member hash stored content ⟨hops, readable⟩

theorem Honest.follows_litter {id : Uuid} (honest : Honest env storage)
    (fresh : id ∉ storage.uploads.rows.map Upload.id) (left : List UInt8) :
    Follows env storage (Store.litter env id left storage) := by
  refine ⟨.refl _, fun row member content held => ?_⟩
  obtain ⟨hops, readable⟩ := held
  rw [honest.linked.read_litter fresh member] at readable
  exact ⟨content, ⟨hops, readable⟩, rfl⟩

theorem Honest.follows_next {event : MaintenanceEvent} (honest : Honest env storage)
    (enabled : (maintenanceSystem env).enabled storage event) :
    Follows env storage ((maintenanceSystem env).next storage event) := by
  refine ⟨(continues_next enabled).rows, fun row member content held => ?_⟩
  cases event with
  | upload stored uploaded =>
      obtain ⟨hops, readable⟩ := held
      rw [maintenanceSystem, honest.linked.read_storeUpload enabled.2.2 member] at readable
      exact ⟨content, ⟨hops, readable⟩, rfl⟩
  | delete target now faults =>
      rw [maintenanceSystem, deleteMatching_files env faults now target storage] at held
      exact ⟨content, FileSystem.holds_of_without held, rfl⟩
  | dedup faults groups =>
      have relinked : Relinking (SameHash env) env storage.uploads storage.files
          (Store.dedupRun env faults groups storage.files) :=
        .dedupRun (sameHash_equivalence env) honest.pairsAlike enabled ⟨honest.linked, .refl⟩
      exact relinked.held row.id content held
  | rehash faults ids =>
      rw [maintenanceSystem, rehashed_files] at held
      exact ⟨content, held, rfl⟩
  | clearHashes => exact ⟨content, held, rfl⟩

/-! ## Slugs -/

def MaintenanceEvent.stores : MaintenanceEvent → Bool
  | .upload _ _ => true
  | _ => false

/-- Only an upload adds a row. -/
theorem length_next {event : MaintenanceEvent} (chore : event.stores = false) :
    ((maintenanceSystem env).next storage event).uploads.rows.length =
      storage.uploads.rows.length := by
  have of_ids {after : Uploads}
      (same : after.rows.map Upload.id = storage.uploads.rows.map Upload.id) :
      after.rows.length = storage.uploads.rows.length := by
    simpa using congrArg List.length same
  cases event with
  | upload row content => cases chore
  | delete target now faults =>
      refine of_ids ?_
      rw [maintenanceSystem, deleteMatching_uploads, setAllDeleted_ids]
  | dedup faults groups => rfl
  | rehash faults ids => exact of_ids (rehashed_ids faults ids)
  | clearHashes => exact of_ids (setHash_ids _ none)

theorem RowsLiveOn.slugsDistinct {same : List Char → List Char → Prop} {after : Uploads}
    (lives : RowsLiveOn table.rows after.rows) (length : after.rows.length = table.rows.length)
    (distinct : table.SlugsDistinct same) : after.SlugsDistinct same := by
  obtain ⟨added, change, rows, livesOn⟩ := lives
  have none : added = [] := by
    rw [rows, List.length_append, List.length_map] at length
    exact List.eq_nil_of_length_eq_zero (by omega)
  subst none
  rw [List.nil_append] at rows
  have active {row : Upload} (member : row ∈ table.rows) (later : (change row).active = true) :
      row.active = true := by
    by_contra inactive
    rw [(livesOn row member).inactive (by simpa using inactive)] at later
    contradiction
  have slug {row : Upload} (member : row ∈ table.rows) : (change row).slug = row.slug := by
    have kept : (identity (change row)).slug = (identity row).slug := by
      rw [(livesOn row member).identity]
    exact kept
  rw [Uploads.SlugsDistinct, rows]
  intro left leftMember right rightMember leftActive rightActive equal
  obtain ⟨left, leftBefore, rfl⟩ := List.mem_map.mp leftMember
  obtain ⟨right, rightBefore, rfl⟩ := List.mem_map.mp rightMember
  rw [slug leftBefore, slug rightBefore] at equal
  rw [distinct left leftBefore right rightBefore (active leftBefore leftActive)
    (active rightBefore rightActive) equal]

end Filehost.Store
