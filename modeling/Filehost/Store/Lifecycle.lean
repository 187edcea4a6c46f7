import Filehost.Data.Refinement
import Filehost.Store.Maintenance

namespace Filehost.Store

open Filehost.Data Filehost.Database

/-! # The life of an upload -/

/-- The columns that nothing updates. -/
def identity (row : Upload) : Upload := { row with hash := none, deletedTimestamp := none }

structure LivesOnAs (row later : Upload) : Prop where
  identity : identity later = identity row
  deleted : ∀ time, row.deletedTimestamp = some time → later.deletedTimestamp = some time

def RowsLiveOn (before after : List Upload) : Prop :=
  ∃ added change, after = added ++ before.map change ∧ ∀ row ∈ before, LivesOnAs row (change row)

/-- The table only grows, its rows live on, and where the file of a deleted upload is
gone there is none again. -/
structure Continues (env : StoreEnv) (before after : Storage) : Prop where
  rows : RowsLiveOn before.uploads.rows after.uploads.rows
  gone : ∀ row ∈ before.uploads.rows, row.active = false →
    before.files (uuidToPath env.root row.id) = none →
      after.files (uuidToPath env.root row.id) = none

variable {env : StoreEnv} {storage : Storage} {table : Uploads} {files : FileSystem}

theorem LivesOnAs.refl (row : Upload) : LivesOnAs row row := ⟨rfl, fun _ => id⟩

theorem LivesOnAs.trans {first second third : Upload} (left : LivesOnAs first second)
    (right : LivesOnAs second third) : LivesOnAs first third :=
  ⟨right.identity.trans left.identity, fun time set => right.deleted time (left.deleted time set)⟩

theorem LivesOnAs.id {row later : Upload} (lives : LivesOnAs row later) : later.id = row.id := by
  have same : (Store.identity later).id = (Store.identity row).id := by rw [lives.identity]
  exact same

theorem LivesOnAs.inactive {row later : Upload} (lives : LivesOnAs row later)
    (inactive : row.active = false) : later.active = false := by
  unfold Upload.active at inactive ⊢
  obtain ⟨time, set⟩ := Option.isSome_iff_exists.mp (Option.isNone_eq_false_iff.mp inactive)
  rw [lives.deleted time set]
  rfl

theorem RowsLiveOn.refl (rows : List Upload) : RowsLiveOn rows rows :=
  ⟨[], id, by simp, fun row _ => .refl row⟩

theorem Continues.refl : Continues env storage storage :=
  ⟨.refl _, fun _ _ _ absent => absent⟩

theorem RowsLiveOn.later {before after : List Upload} (lives : RowsLiveOn before after)
    {row : Upload} (member : row ∈ before) : ∃ later ∈ after, LivesOnAs row later := by
  obtain ⟨added, change, rows, livesOn⟩ := lives
  refine ⟨change row, ?_, livesOn row member⟩
  rw [rows]
  exact List.mem_append_right _ (List.mem_map_of_mem member)

theorem RowsLiveOn.trans {first second third : List Upload} (left : RowsLiveOn first second)
    (right : RowsLiveOn second third) : RowsLiveOn first third := by
  obtain ⟨added, change, rows, lives⟩ := left
  obtain ⟨more, further, laterRows, livesOn⟩ := right
  refine ⟨more ++ added.map further, further ∘ change, ?_, fun row earlier => ?_⟩
  · rw [laterRows, rows, List.map_append, List.map_map, List.append_assoc]
  · have member : change row ∈ second := by
      rw [rows]
      exact List.mem_append_right _ (List.mem_map_of_mem earlier)
    exact (lives row earlier).trans (livesOn _ member)

theorem Continues.trans {first second third : Storage} (left : Continues env first second)
    (right : Continues env second third) : Continues env first third := by
  refine ⟨left.rows.trans right.rows, fun row earlier inactive absent => ?_⟩
  obtain ⟨middle, member, lives⟩ := left.rows.later earlier
  have there := right.gone middle member (lives.inactive inactive)
  rw [lives.id] at there
  exact there (left.gone row earlier inactive absent)

/-! ## One step -/

theorem continues_storeUpload {row : Upload} {content : List UInt8}
    (fresh : row.id ∉ storage.uploads.rows.map Upload.id) :
    Continues env storage (storeUpload env row content storage) := by
  constructor
  · change RowsLiveOn _ ((storage.uploads.insertUploadRow row).getD storage.uploads).rows
    cases inserted : storage.uploads.insertUploadRow row with
    | none => exact .refl _
    | some after =>
        refine ⟨[row], id, ?_, fun other _ => .refl other⟩
        rw [Option.getD_some, (Uploads.insertUploadRow_rows inserted).1, List.map_id]
        rfl
  · intro other member _ absent
    have apart : uuidToPath env.root other.id ≠ uuidToPath env.root row.id := fun same =>
      fresh (List.mem_map.mpr ⟨other, member, uuidToPath_inj.mp same⟩)
    exact (Function.update_of_ne apart ..).trans absent

theorem setAllDeleted_rows (ids : List Uuid) (now : Int) :
    (table.setAllDeleted ids now).rows =
      table.rows.map fun row => if row.id ∈ ids then Uploads.markDeleted now row else row := by
  induction ids generalizing table with
  | nil => simp [Uploads.setAllDeleted]
  | cons id rest ih =>
      rw [Uploads.setAllDeleted_cons, ih]
      change List.map _ (List.map _ _) = _
      rw [List.map_map]
      apply List.map_congr_left
      intro row _
      by_cases same : row.id = id
      · by_cases later : row.id ∈ rest
        · simp [same, Uploads.markDeleted]
        · simp_all [Uploads.markDeleted]
      · simp [same]

theorem livesOnAs_markDeleted {row : Upload} (active : row.active = true) (now : Int) :
    LivesOnAs row (Uploads.markDeleted now row) := by
  refine ⟨rfl, fun time set => ?_⟩
  rw [Upload.active, set] at active
  cases active

/-- Only active rows are marked. -/
theorem active_of_marked {target : DeleteTarget} {now : Int} {faults : DeleteFaults} {row : Upload}
    (member : row ∈ storage.uploads.rows)
    (marked : row.id ∈ markedIds faults (handledRows env faults target now storage)) :
    row.active = true := by
  obtain ⟨other, handled, same⟩ := List.mem_map.mp (mem_markedIds.mp marked).1
  have selected := handledRows_subset env faults now target storage handled
  obtain ⟨otherMember, chosen⟩ := List.mem_filter.mp selected
  rw [← Uploads.eq_of_same_id otherMember member same]
  exact (Bool.and_eq_true_iff.mp chosen).2

theorem continues_deleteMatching (target : DeleteTarget) (now : Int) (faults : DeleteFaults) :
    Continues env storage (deleteMatching env faults target now storage).1 := by
  constructor
  · rw [deleteMatching_uploads, setAllDeleted_rows]
    refine ⟨[], _, rfl, fun row member => ?_⟩
    split
    · exact livesOnAs_markDeleted (active_of_marked member ‹_›) now
    · exact .refl row
  · intro row _ _ absent
    rw [deleteMatching_files, FileSystem.without]
    split
    · rfl
    · exact absent

/-- A run of the dedup command writes to the paths of duplicates and to temporary
names. -/
theorem dedupRun_of_other {groups : List (Uuid × List Uuid)} {faults : Uuid → LinkFault} {id : Uuid}
    (drawn : DrawnFrom table groups) (other : ∀ pair ∈ findDedupPairs table, pair.dupId ≠ id) :
    dedupRun env faults groups files (uuidToPath env.root id) = files (uuidToPath env.root id) := by
  have duplicate {canonicalId dupId : Uuid} (apart : dupId ≠ id) (files : FileSystem) :
      linkDuplicate env faults canonicalId files dupId (uuidToPath env.root id) =
        files (uuidToPath env.root id) := by
    have path : uuidToPath env.root id ≠ uuidToPath env.root dupId :=
      fun same => apart (uuidToPath_inj.mp same).symm
    have temporary := uuidToPath_ne_temporaryPath env.root id dupId
    simp only [linkDuplicate]
    split
    · rw [replaceWithSymlink_eq]
      cases faults dupId with
      | remove => rfl
      | symlink => exact Function.update_of_ne temporary ..
      | rename => exact Function.update_of_ne temporary ..
      | none => exact (Function.update_of_ne path ..).trans (Function.update_of_ne temporary ..)
    · rfl
  have duplicates {canonicalId : Uuid} {dupIds : List Uuid} (files : FileSystem)
      (apart : ∀ dupId ∈ dupIds, dupId ≠ id) :
      dupIds.foldl (linkDuplicate env faults canonicalId) files (uuidToPath env.root id) =
        files (uuidToPath env.root id) := by
    induction dupIds generalizing files with
    | nil => rfl
    | cons dupId rest ih =>
        rw [List.foldl_cons, ih _ fun later member => apart later (List.mem_cons_of_mem _ member)]
        exact duplicate (apart dupId List.mem_cons_self) files
  unfold dedupRun
  induction groups generalizing files with
  | nil => rfl
  | cons group rest ih =>
      rw [List.foldl_cons, ih fun later member => drawn later (List.mem_cons_of_mem _ member)]
      unfold linkGroup
      split
      · exact duplicates files fun dupId listed =>
          other _ (drawn group List.mem_cons_self dupId listed)
      · rfl

theorem continues_dedupRun {groups : List (Uuid × List Uuid)} {faults : Uuid → LinkFault}
    (drawn : DrawnFrom storage.uploads groups) :
    Continues env storage { storage with files := dedupRun env faults groups storage.files } := by
  refine ⟨.refl _, fun row member inactive absent => ?_⟩
  refine (dedupRun_of_other drawn fun pair found same => ?_).trans absent
  obtain ⟨hash, duplicate, canonical, rows⟩ := mem_findDedupPairs found
  have equal : duplicate = row :=
    Uploads.eq_of_same_id rows.member member (rows.dupId.symm.trans same)
  rw [← equal, rows.active] at inactive
  cases inactive

theorem livesOnAs_withHash (row : Upload) (hash : Option (List UInt8)) :
    LivesOnAs row (Uploads.withHash hash row) := ⟨rfl, fun _ => id⟩

theorem continues_rehashed (faults : RehashFaults) (ids : List Uuid) :
    Continues env storage (rehashed env faults ids storage) := by
  constructor
  · refine ⟨[], _, foldl_rehashOne_rows ids, fun row _ => ?_⟩
    split
    · unfold rehashedRow
      split
      · exact .refl row
      · exact livesOnAs_withHash row _
    · exact .refl row
  · intro row _ _ absent
    rw [rehashed_files, absent]

theorem continues_clearHashes :
    Continues env storage { storage with uploads := storage.uploads.clearHashes } := by
  refine ⟨⟨[], _, rfl, fun row _ => ?_⟩, fun _ _ _ absent => absent⟩
  split
  · exact livesOnAs_withHash row none
  · exact .refl row

theorem continues_next {event : MaintenanceEvent}
    (enabled : (maintenanceSystem env).enabled storage event) :
    Continues env storage ((maintenanceSystem env).next storage event) := by
  cases event with
  | upload row content => exact continues_storeUpload enabled.2.2
  | delete target now faults => exact continues_deleteMatching target now faults
  | dedup faults groups => exact continues_dedupRun enabled
  | rehash faults ids => exact continues_rehashed faults ids
  | clearHashes => exact continues_clearHashes

/-- Between any two states of a run. -/
theorem run_continues {start : Storage} {events : List MaintenanceEvent}
    (run : (maintenanceSystem env).Run start events storage) : Continues env start storage :=
  run.relates .refl (fun _ _ enabled => continues_next enabled) fun _ _ _ left right =>
    left.trans right

/-- A deletion, and the dedup command after it. -/
theorem copied_continues : Continues plainEnv copiedState
    ((maintenanceSystem plainEnv).after copiedState
      [.dedup (fun _ => .none) [], .delete (.byId firstUuid) 3 .none]) :=
  run_continues (.of_admits ⟨⟨trivial, trivial⟩, fun _ member => (List.not_mem_nil member).elim⟩)

end Filehost.Store
