import Filehost.Data.Refinement
import Filehost.Store.Maintenance

namespace Filehost.Store

open Filehost.Data Filehost.Database

/-! # What the store is for

An archive keeps the uploads that were not deleted, each with the content it came
with.  Linking duplicates and hashing files again is not to be seen in it. -/

def unhashed (row : Upload) : Upload := Uploads.withHash none row

structure Archived where
  upload : Upload
  content : List UInt8

abbrev Archive := Uuid → Option Archived

def archiveSystem (env : StoreEnv) : System Archive MaintenanceEvent where
  enabled _ _ := True
  next archive event :=
    match event with
    | .upload row content =>
        if row.fits then Function.update archive row.id (some ⟨unhashed row, content⟩) else archive
    | .delete target now faults =>
        if !target.wellFormed || faults.select then archive
        else fun id => (archive id).filter fun archived => !target.whereClause env now archived.upload
    | .dedup _ _ | .rehash _ _ | .clearHashes => archive

/-- What the store answers for an upload that was not deleted. -/
def view (env : StoreEnv) (storage : Storage) : Archive := fun id => do
  let row ← storage.uploads.rows.find? fun row => row.id = id && row.active
  let content ← storage.content env row
  return ⟨unhashed row, content⟩

def MaintenanceEvent.links : MaintenanceEvent → Bool
  | .dedup _ _ => true
  | _ => false

/-- No hash collisions, no deletion that takes the file of another upload, and no
failing `UPDATE`, which would leave a row active without its file. -/
def Careful (env : StoreEnv) (storage : Storage) : MaintenanceEvent → Prop
  | .upload _ content =>
      ∀ row ∈ storage.uploads.rows, ∀ held, storage.files.Holds (uuidToPath env.root row.id) held →
        env.blake3 held = env.blake3 content → held = content
  | .delete target now faults =>
      SharesNoFile env storage (.delete target now faults) ∧ ∀ id, faults.statement id = false
  | _ => True

variable {env : StoreEnv} {storage : Storage} {files : FileSystem} {links : Nat}

/-! ## Looking an upload up -/

theorem view_eq_some {id : Uuid} {archived : Archived} :
    view env storage id = some archived ↔
      ∃ row ∈ storage.uploads.rows, row.id = id ∧ row.active = true ∧
        archived.upload = unhashed row ∧ storage.content env row = some archived.content := by
  constructor
  · intro found
    obtain ⟨row, chosen, found⟩ := Option.bind_eq_some_iff.mp found
    obtain ⟨content, readable, same⟩ := Option.bind_eq_some_iff.mp found
    have matched := List.find?_some chosen
    rw [Bool.and_eq_true, decide_eq_true_eq] at matched
    cases same
    exact ⟨row, List.mem_of_find?_eq_some chosen, matched.1, matched.2, rfl, readable⟩
  · intro found
    obtain ⟨row, member, rfl, active, same, readable⟩ := found
    have chosen : storage.uploads.rows.find? (fun other => other.id = row.id && other.active) =
        some row := by
      cases sought : storage.uploads.rows.find? fun other => other.id = row.id && other.active with
      | none =>
          have absent := List.find?_eq_none.mp sought row member
          simp [active] at absent
      | some other =>
          have matched := List.find?_some sought
          rw [Bool.and_eq_true, decide_eq_true_eq] at matched
          rw [Uploads.eq_of_same_id (List.mem_of_find?_eq_some sought) member matched.1]
    unfold view
    rw [chosen]
    simp only [Option.bind_eq_bind, Option.bind_some, readable]
    rw [← same]
    rfl

theorem id_of_unhashed {left right : Upload} (same : unhashed left = unhashed right) :
    left.id = right.id := by
  have ids : (unhashed left).id = (unhashed right).id := by rw [same]
  exact ids

theorem active_of_unhashed {left right : Upload} (same : unhashed left = unhashed right) :
    left.active = right.active := by
  have activities : (unhashed left).active = (unhashed right).active := by rw [same]
  exact activities

/-- Two stores that have the same active rows, up to hashes, and read the same for
each look the same. -/
theorem view_congr {after : Storage}
    (forward : ∀ row ∈ storage.uploads.rows, row.active = true → ∃ later ∈ after.uploads.rows,
      unhashed later = unhashed row ∧ after.content env later = storage.content env row)
    (backward : ∀ later ∈ after.uploads.rows, later.active = true →
      ∃ row ∈ storage.uploads.rows, unhashed row = unhashed later) :
    view env after = view env storage := by
  funext id
  apply Option.ext
  intro archived
  rw [view_eq_some, view_eq_some]
  constructor
  · intro found
    obtain ⟨later, laterMember, rfl, active, same, readable⟩ := found
    obtain ⟨row, member, alike⟩ := backward later laterMember active
    have rowActive : row.active = true := (active_of_unhashed alike).trans active
    have rowId := id_of_unhashed alike
    obtain ⟨other, otherMember, otherAlike, content⟩ := forward row member rowActive
    have equal : other = later := Uploads.eq_of_same_id otherMember laterMember
      ((id_of_unhashed otherAlike).trans rowId)
    rw [equal] at content
    exact ⟨row, member, rowId, rowActive, same.trans alike.symm, content.symm.trans readable⟩
  · intro found
    obtain ⟨row, member, rfl, active, same, readable⟩ := found
    obtain ⟨later, laterMember, alike, content⟩ := forward row member active
    exact ⟨later, laterMember, id_of_unhashed alike, (active_of_unhashed alike).trans active,
      same.trans alike.symm, content.trans readable⟩

theorem whereClause_unhashed (target : DeleteTarget) (now : Int) (row : Upload) :
    target.whereClause env now (unhashed row) = target.whereClause env now row := by
  cases target <;> rfl

/-! ## What a run keeps -/

structure Preserved (env : StoreEnv) (links : Nat) (storage : Storage) : Prop where
  honest : Honest env storage
  apart : ∀ left ∈ storage.uploads.rows, ∀ right ∈ storage.uploads.rows, ∀ first second,
    storage.files.Holds (uuidToPath env.root left.id) first →
      storage.files.Holds (uuidToPath env.root right.id) second →
        env.blake3 first = env.blake3 second → first = second
  readable : ∀ row ∈ storage.uploads.rows, row.active = true →
    (storage.files.read links (uuidToPath env.root row.id)).isSome = true

theorem Preserved.pairsAlike (preserved : Preserved env links storage) :
    PairsAlike Eq env storage.uploads storage.files := by
  intro pair found duplicate canonical dupHeld canonicalHeld
  have same := preserved.honest.pairsAlike pair found duplicate canonical dupHeld canonicalHeld
  obtain ⟨hash, dupRow, canonicalRow, rows⟩ := mem_findDedupPairs found
  rw [rows.dupId] at dupHeld
  rw [rows.canonicalId] at canonicalHeld
  exact preserved.apart dupRow rows.member canonicalRow (canonicalOf_mem rows.newest).1 duplicate
    canonical dupHeld canonicalHeld same

theorem Preserved.noCollisions (preserved : Preserved env links storage) :
    NoCollisions env storage :=
  fun left leftMember right rightMember first second leftContent rightContent =>
    preserved.apart left leftMember right rightMember first second ⟨_, leftContent⟩ ⟨_, rightContent⟩

theorem FileSystem.link_of_mem_linkTargets {hops : Nat} {path target : Path}
    (member : target ∈ files.linkTargets hops path) :
    ∃ link, files link = some (.symlink target) := by
  induction hops generalizing path with
  | zero =>
      rw [linkTargets] at member
      split at member <;> cases member
  | succ hops ih =>
      rw [linkTargets] at member
      split at member
      · rename_i next found
        rcases List.mem_cons.mp member with rfl | later
        · exact ⟨path, found⟩
        · exact ih later
      · cases member

theorem LinksToUploads.readsNoTemporary (linked : LinksToUploads env storage) :
    ReadsNoTemporary env storage := by
  intro row _ _ hops _ target member
  obtain ⟨link, found⟩ := FileSystem.link_of_mem_linkTargets member
  obtain ⟨other, -, rfl⟩ := linked link target found
  exact uuidToPath_not_temporary other.id

theorem Preserved.content (preserved : Preserved env links storage) (few : links ≤ env.hops)
    {row : Upload} (member : row ∈ storage.uploads.rows) (active : row.active = true) :
    ∃ content, storage.files.read links (uuidToPath env.root row.id) = some content ∧
      storage.content env row = some content := by
  obtain ⟨content, readable⟩ := Option.isSome_iff_exists.mp (preserved.readable row member active)
  exact ⟨content, readable, FileSystem.read_mono readable few⟩

/-! ## One step -/

section Uploading

variable {row : Upload} {content : List UInt8}

theorem storeUpload_of_fits (fresh : row.id ∉ storage.uploads.rows.map Upload.id)
    (fits : row.fits = true) :
    (storeUpload env row content storage).uploads.rows = row :: storage.uploads.rows := by
  change ((storage.uploads.insertUploadRow row).getD storage.uploads).rows = _
  rw [Uploads.insertUploadRow, dif_pos ⟨fresh, fits⟩]
  rfl

theorem storeUpload_of_misfit (misfit : row.fits = false) :
    (storeUpload env row content storage).uploads = storage.uploads := by
  change (storage.uploads.insertUploadRow row).getD storage.uploads = _
  rw [Uploads.insertUploadRow, dif_neg (fun accepted => by simp [misfit] at accepted)]
  rfl

theorem view_storeUpload (linked : LinksToUploads env storage) (active : row.active = true)
    (fresh : row.id ∉ storage.uploads.rows.map Upload.id) :
    view env (storeUpload env row content storage) =
      (archiveSystem env).next (view env storage) (.upload row content) := by
  have others : ∀ other ∈ storage.uploads.rows,
      (storeUpload env row content storage).content env other = storage.content env other :=
    fun other member => linked.read_storeUpload fresh member env.hops
  change _ = if row.fits then Function.update (view env storage) row.id _ else view env storage
  cases fits : row.fits with
  | false =>
      have same := @storeUpload_of_misfit env storage row content fits
      rw [if_neg Bool.false_ne_true]
      refine view_congr (fun other member _ => ?_) fun other member _ => ?_
      · exact ⟨other, by rwa [same], rfl, others other member⟩
      · exact ⟨other, by rwa [same] at member, rfl⟩
  | true =>
      have rows := @storeUpload_of_fits env storage row content fresh fits
      have own : (storeUpload env row content storage).content env row = some content :=
        read_of_file (storeUpload_own row content) _
      rw [if_pos rfl]
      funext id
      by_cases same : id = row.id
      · subst same
        rw [Function.update_self, view_eq_some]
        exact ⟨row, by rw [rows]; exact List.mem_cons_self, rfl, active, rfl, own⟩
      · rw [Function.update_of_ne same]
        apply Option.ext
        intro archived
        rw [view_eq_some, view_eq_some, rows]
        constructor
        · intro found
          obtain ⟨other, member, rfl, otherActive, alike, readable⟩ := found
          have earlier := (List.mem_cons.mp member).resolve_left fun equal => same (by rw [equal])
          exact ⟨other, earlier, rfl, otherActive, alike, (others other earlier).symm.trans readable⟩
        · intro found
          obtain ⟨other, member, rfl, otherActive, alike, readable⟩ := found
          exact ⟨other, List.mem_cons_of_mem _ member, rfl, otherActive, alike,
            (others other member).trans readable⟩

theorem Preserved.storeUpload (preserved : Preserved env links storage)
    (hashed : row.hash = some (env.blake3 content))
    (fresh : row.id ∉ storage.uploads.rows.map Upload.id)
    (careful : Careful env storage (.upload row content)) :
    Preserved env links (storeUpload env row content storage) := by
  have linked := preserved.honest.linked
  have own := FileSystem.holds_of_file (@storeUpload_own env storage row content)
  have back {other : Upload} {held : List UInt8} (member : other ∈ storage.uploads.rows)
      (holds : (Store.storeUpload env row content storage).files.Holds
        (uuidToPath env.root other.id) held) :
      storage.files.Holds (uuidToPath env.root other.id) held := by
    obtain ⟨hops, readable⟩ := holds
    exact ⟨hops, by rwa [linked.read_storeUpload fresh member] at readable⟩
  refine ⟨preserved.honest.storeUpload hashed fresh, ?_, ?_⟩
  · intro left leftMember right rightMember first second leftHeld rightHeld same
    rcases mem_storeUpload leftMember with rfl | leftEarlier <;>
      rcases mem_storeUpload rightMember with rfl | rightEarlier
    · exact leftHeld.unique rightHeld
    · rw [leftHeld.unique own] at same ⊢
      exact (careful right rightEarlier second (back rightEarlier rightHeld) same.symm).symm
    · rw [rightHeld.unique own] at same ⊢
      exact careful left leftEarlier first (back leftEarlier leftHeld) same
    · exact preserved.apart left leftEarlier right rightEarlier first second
        (back leftEarlier leftHeld) (back rightEarlier rightHeld) same
  · intro other member active
    rcases mem_storeUpload member with rfl | earlier
    · rw [FileSystem.read_file (storeUpload_own other content)]
      rfl
    · rw [linked.read_storeUpload fresh earlier]
      exact preserved.readable other earlier active

end Uploading

section Deleting

variable {target : DeleteTarget} {now : Int} {faults : DeleteFaults}

theorem deleteMatching_of_refused (refused : (!target.wellFormed || faults.select) = true) :
    (deleteMatching env faults target now storage).1 = storage := by
  rw [deleteMatching_fst, if_pos refused]

theorem Preserved.kept_content (careful : Careful env storage (.delete target now faults))
    {row : Upload} (kept : row ∈ keptRows env target now storage) :
    (deleteMatching env faults target now storage).1.content env row = storage.content env row :=
  (leavesOthers_iff (.delete target now faults)).mpr careful.1 row kept

theorem mem_keptRows {row : Upload} (member : row ∈ storage.uploads.rows)
    (active : row.active = true) (unselected : target.whereClause env now row = false) :
    row ∈ keptRows env target now storage :=
  List.mem_filter.mpr ⟨member, by simp [active, unselected]⟩

theorem view_deleteMatching (careful : Careful env storage (.delete target now faults)) :
    view env (deleteMatching env faults target now storage).1 =
      (archiveSystem env).next (view env storage) (.delete target now faults) := by
  change _ = if !target.wellFormed || faults.select then view env storage else _
  by_cases refused : (!target.wellFormed || faults.select) = true
  · rw [if_pos refused, deleteMatching_of_refused refused]
  · rw [if_neg refused]
    rw [Bool.or_eq_true, not_or, Bool.not_eq_true', Bool.not_eq_false, Bool.not_eq_true] at refused
    funext id
    apply Option.ext
    intro archived
    rw [Option.filter_eq_some_iff, view_eq_some, view_eq_some, Bool.not_eq_true']
    constructor
    · intro found
      obtain ⟨row, later, rfl, active, alike, readable⟩ := found
      obtain ⟨member, unselected⟩ :=
        (mem_deleteMatching refused.1 refused.2 careful.2 active).mp later
      rw [Preserved.kept_content careful (mem_keptRows member active unselected)] at readable
      refine ⟨⟨row, member, rfl, active, alike, readable⟩, ?_⟩
      rw [alike, whereClause_unhashed, unselected]
    · intro found
      obtain ⟨⟨row, member, rfl, active, alike, readable⟩, unselected⟩ := found
      rw [alike, whereClause_unhashed] at unselected
      refine ⟨row, (mem_deleteMatching refused.1 refused.2 careful.2 active).mpr
        ⟨member, unselected⟩, rfl, active, alike, ?_⟩
      rw [Preserved.kept_content careful (mem_keptRows member active unselected), readable]

theorem Preserved.deleteMatching (preserved : Preserved env links storage)
    (few : links ≤ env.hops) (careful : Careful env storage (.delete target now faults)) :
    Preserved env links (deleteMatching env faults target now storage).1 := by
  refine ⟨preserved.honest.deleteMatching target now faults, ?_, ?_⟩
  · have uploads := deleteMatching_uploads env faults now target storage
    have files := deleteMatching_files env faults now target storage
    intro left leftMember right rightMember first second leftHeld rightHeld same
    rw [uploads] at leftMember rightMember
    rw [files] at leftHeld rightHeld
    obtain ⟨leftRow, leftEarlier, leftId, -⟩ := mem_setAllDeleted leftMember
    obtain ⟨rightRow, rightEarlier, rightId, -⟩ := mem_setAllDeleted rightMember
    rw [← leftId] at leftHeld
    rw [← rightId] at rightHeld
    exact preserved.apart leftRow leftEarlier rightRow rightEarlier first second
      (FileSystem.holds_of_without leftHeld) (FileSystem.holds_of_without rightHeld) same
  · intro row later active
    by_cases refused : (!target.wellFormed || faults.select) = true
    · rw [deleteMatching_of_refused refused] at later ⊢
      exact preserved.readable row later active
    · rw [Bool.or_eq_true, not_or, Bool.not_eq_true', Bool.not_eq_false, Bool.not_eq_true] at refused
      obtain ⟨member, unselected⟩ :=
        (mem_deleteMatching refused.1 refused.2 careful.2 active).mp later
      have kept := mem_keptRows member active unselected
      obtain ⟨content, readable, whole⟩ := preserved.content few member active
      have same := Preserved.kept_content careful kept
      unfold Storage.content at same whole
      rw [deleteMatching_files] at same ⊢
      rcases (FileSystem.read_without_eq_iff (kept_path_not_removed kept)).mp same with none | apart
      · rw [none] at whole
        cases whole
      · rw [FileSystem.read_without_of_disjoint (kept_path_not_removed kept)
          fun target member => apart target (FileSystem.linkTargets_mono few member), readable]
        rfl

end Deleting

section Maintaining

variable {groups : List (Uuid × List Uuid)} {linkFaults : Uuid → LinkFault}

theorem Preserved.read_dedupRun (preserved : Preserved env links storage)
    (drawn : DrawnFrom storage.uploads groups) {row : Upload}
    (member : row ∈ storage.uploads.rows) (active : row.active = true) {content : List UInt8}
    (readable : storage.files.read links (uuidToPath env.root row.id) = some content) :
    (dedupRun env linkFaults groups storage.files).read (links + 1) (uuidToPath env.root row.id) =
      some content := by
  have honest : HashesContent env storage := fun other listed _ held hash found stored =>
    (preserved.honest.hashes other listed hash stored held ⟨_, found⟩).symm
  exact (dedupRun_preserves honest preserved.noCollisions
    preserved.honest.linked.readsNoTemporary drawn).1 row member active links content readable

theorem Preserved.dedupRun (preserved : Preserved env links storage)
    (drawn : DrawnFrom storage.uploads groups) :
    Preserved env (links + 1)
      { storage with files := dedupRun env linkFaults groups storage.files } := by
  have relinked : Relinking Eq env storage.uploads storage.files
      (Store.dedupRun env linkFaults groups storage.files) :=
    .dedupRun eq_equivalence preserved.pairsAlike drawn
      ⟨preserved.honest.linked, fun _ content held => ⟨content, held, rfl⟩⟩
  refine ⟨preserved.honest.dedupRun drawn, ?_, fun row member active => ?_⟩
  · intro left leftMember right rightMember first second leftHeld rightHeld same
    obtain ⟨_, leftBefore, rfl⟩ := relinked.held left.id first leftHeld
    obtain ⟨_, rightBefore, rfl⟩ := relinked.held right.id second rightHeld
    exact preserved.apart left leftMember right rightMember _ _ leftBefore rightBefore same
  · obtain ⟨content, readable⟩ := Option.isSome_iff_exists.mp (preserved.readable row member active)
    rw [preserved.read_dedupRun drawn member active readable]
    rfl

theorem view_dedupRun (preserved : Preserved env links storage) (few : links + 1 ≤ env.hops)
    (drawn : DrawnFrom storage.uploads groups) :
    view env { storage with files := dedupRun env linkFaults groups storage.files } =
      view env storage := by
  refine view_congr (fun row member active => ⟨row, member, rfl, ?_⟩)
    fun row member _ => ⟨row, member, rfl⟩
  obtain ⟨content, readable, whole⟩ := preserved.content (by omega) member active
  rw [whole]
  exact FileSystem.read_mono (preserved.read_dedupRun drawn member active readable) few

/-- A change of stored hashes alone. -/
structure Rehashes (before after : Storage) : Prop where
  files : after.files = before.files
  rows : ∃ change : Upload → Upload, (∀ row, unhashed (change row) = unhashed row) ∧
    after.uploads.rows = before.uploads.rows.map change

theorem Rehashes.view {after : Storage} (rehashes : Rehashes storage after) :
    view env after = view env storage := by
  obtain ⟨files, change, same, rows⟩ := rehashes
  refine view_congr (fun row member _ => ⟨change row, ?_, same row, ?_⟩) fun later member _ => ?_
  · rw [rows]
    exact List.mem_map_of_mem member
  · unfold Storage.content
    rw [files, id_of_unhashed (same row)]
  · rw [rows] at member
    obtain ⟨row, earlier, rfl⟩ := List.mem_map.mp member
    exact ⟨row, earlier, (same row).symm⟩

theorem Rehashes.preserved {after : Storage} (rehashes : Rehashes storage after)
    (honest : Honest env after) (preserved : Preserved env links storage) :
    Preserved env links after := by
  obtain ⟨files, change, same, rows⟩ := rehashes
  refine ⟨honest, ?_, ?_⟩
  · rw [rows, files]
    intro left leftMember right rightMember first second leftHeld rightHeld equal
    obtain ⟨left, leftEarlier, rfl⟩ := List.mem_map.mp leftMember
    obtain ⟨right, rightEarlier, rfl⟩ := List.mem_map.mp rightMember
    rw [id_of_unhashed (same left)] at leftHeld
    rw [id_of_unhashed (same right)] at rightHeld
    exact preserved.apart left leftEarlier right rightEarlier first second leftHeld rightHeld equal
  · rw [rows, files]
    intro later member active
    obtain ⟨row, earlier, rfl⟩ := List.mem_map.mp member
    rw [id_of_unhashed (same row)]
    exact preserved.readable row earlier ((active_of_unhashed (same row)).symm.trans active)

theorem rehashes_clearHashes (storage : Storage) :
    Rehashes storage { storage with uploads := storage.uploads.clearHashes } := by
  refine ⟨rfl, _, fun row => ?_, rfl⟩
  split <;> rfl

theorem unhashed_rehashedRow (faults : RehashFaults) (row : Upload) :
    unhashed (rehashedRow env faults files row) = unhashed row := by
  unfold rehashedRow
  split <;> rfl

theorem rehashes_rehashed (faults : RehashFaults) (ids : List Uuid) :
    Rehashes storage (rehashed env faults ids storage) := by
  refine ⟨rehashed_files faults ids, _, fun row => ?_, foldl_rehashOne_rows ids⟩
  split
  · exact unhashed_rehashedRow faults row
  · rfl

end Maintaining

/-! ## Runs -/

def linkRuns (events : List MaintenanceEvent) : Nat := events.countP MaintenanceEvent.links

theorem Preserved.next {event : MaintenanceEvent} (preserved : Preserved env links storage)
    (few : links ≤ env.hops)
    (enabled : ((maintenanceSystem env).restrict (Careful env)).enabled storage event) :
    Preserved env (links + event.links.toNat) ((maintenanceSystem env).next storage event) := by
  cases event with
  | upload row content => exact preserved.storeUpload enabled.1.2.1 enabled.1.2.2 enabled.2
  | delete target now faults => exact preserved.deleteMatching few enabled.2
  | dedup faults groups => exact preserved.dedupRun enabled.1
  | rehash faults ids =>
      exact (rehashes_rehashed faults ids).preserved (preserved.honest.rehashed faults ids) preserved
  | clearHashes =>
      exact (rehashes_clearHashes storage).preserved preserved.honest.clearHashes preserved

theorem view_next {event : MaintenanceEvent} (preserved : Preserved env links storage)
    (few : links + event.links.toNat ≤ env.hops)
    (enabled : ((maintenanceSystem env).restrict (Careful env)).enabled storage event) :
    view env ((maintenanceSystem env).next storage event) =
      (archiveSystem env).next (view env storage) event := by
  cases event with
  | upload row content =>
      exact view_storeUpload preserved.honest.linked enabled.1.1 enabled.1.2.2
  | delete target now faults => exact view_deleteMatching enabled.2
  | dedup faults groups => exact view_dedupRun preserved few enabled.1
  | rehash faults ids => exact (rehashes_rehashed faults ids).view
  | clearHashes => exact (rehashes_clearHashes storage).view

theorem preserved_empty : Preserved env 0 .empty :=
  ⟨honest_empty, fun _ member => (List.not_mem_nil member).elim,
    fun _ member => (List.not_mem_nil member).elim⟩

def Archive.empty : Archive := fun _ => none

theorem linkRuns_cons (event : MaintenanceEvent) (events : List MaintenanceEvent) :
    linkRuns (event :: events) = linkRuns events + event.links.toNat := by
  unfold linkRuns
  cases linking : event.links <;> simp [linking]

/-- While the links stay short enough to be followed. -/
def Archives (env : StoreEnv) (events : List MaintenanceEvent) (storage : Storage) : Prop :=
  linkRuns events ≤ env.hops → Preserved env (linkRuns events) storage ∧
    view env storage = (archiveSystem env).after .empty events

theorem archives_of_run {events : List MaintenanceEvent}
    (run : ((maintenanceSystem env).restrict (Careful env)).Run .empty events storage) :
    Archives env events storage := by
  refine run.invariant_with_events (fun _ => ⟨preserved_empty, rfl⟩) ?_
  intro events state event earlier enabled few
  rw [linkRuns_cons] at few ⊢
  obtain ⟨preserved, same⟩ := earlier (by omega)
  refine ⟨preserved.next (by omega) enabled, ?_⟩
  rw [System.after, ← same]
  exact view_next preserved few enabled

/-- What the archive keeps was uploaded. -/
theorem uploaded_of_archived {events : List MaintenanceEvent} {id : Uuid} {archived : Archived}
    (kept : (archiveSystem env).after .empty events id = some archived) :
    ∃ row, .upload row archived.content ∈ events ∧ row.id = id ∧
      archived.upload = unhashed row := by
  induction events with
  | nil => cases kept
  | cons event events ih =>
      have earlier (kept : (archiveSystem env).after .empty events id = some archived) :
          ∃ row, .upload row archived.content ∈ event :: events ∧ row.id = id ∧
            archived.upload = unhashed row := by
        obtain ⟨row, member, same⟩ := ih kept
        exact ⟨row, List.mem_cons_of_mem _ member, same⟩
      cases event with
      | upload row content =>
          change (if row.fits then Function.update _ row.id _ else _ : Archive) id = _ at kept
          split at kept
          · by_cases same : id = row.id
            · rw [same, Function.update_self] at kept
              cases kept
              exact ⟨row, List.mem_cons_self, same.symm, rfl⟩
            · rw [Function.update_of_ne same] at kept
              exact earlier kept
          · exact earlier kept
      | delete target now faults =>
          change (if !target.wellFormed || faults.select then _ else _ : Archive) id = _ at kept
          split at kept
          · exact earlier kept
          · exact earlier (Option.filter_eq_some_iff.mp kept).1
      | dedup faults groups => exact earlier kept
      | rehash faults ids => exact earlier kept
      | clearHashes => exact earlier kept

/-- As long as the dedup command ran no more often than links are followed, the store
answers as the archive does, and each upload that was not deleted is read as the
content it was uploaded with. -/
theorem run_archives {events : List MaintenanceEvent}
    (run : ((maintenanceSystem env).restrict (Careful env)).Run .empty events storage)
    (few : linkRuns events ≤ env.hops) :
    view env storage = (archiveSystem env).after .empty events ∧
      ∀ row ∈ storage.uploads.rows, row.active = true →
        ∃ uploaded content, .upload uploaded content ∈ events ∧
          unhashed uploaded = unhashed row ∧ storage.content env row = some content := by
  obtain ⟨preserved, same⟩ := archives_of_run run few
  refine ⟨same, fun row member active => ?_⟩
  obtain ⟨content, -, readable⟩ := preserved.content few member active
  have seen : view env storage row.id = some ⟨unhashed row, content⟩ :=
    view_eq_some.mpr ⟨row, member, rfl, active, rfl, readable⟩
  rw [same] at seen
  obtain ⟨uploaded, found, -, alike⟩ := uploaded_of_archived seen
  exact ⟨uploaded, content, found, alike.symm, readable⟩

def linkedCopies : List MaintenanceEvent :=
  .dedup (fun _ => .none) [(secondUuid, [firstUuid])] :: copiedEvents

theorem copies_archived :
    view plainEnv ((maintenanceSystem plainEnv).after .empty linkedCopies) =
        (archiveSystem plainEnv).after .empty linkedCopies ∧
      ((maintenanceSystem plainEnv).after .empty linkedCopies).files
          (uuidToPath plainEnv.root firstUuid) =
        some (.symlink (uuidToPath plainEnv.root secondUuid)) := by
  have run : ((maintenanceSystem plainEnv).restrict (Careful plainEnv)).Run .empty linkedCopies
      ((maintenanceSystem plainEnv).after .empty linkedCopies) := .of_admits ?_
  · exact ⟨(run_archives run (by decide)).1, by decide⟩
  refine ⟨⟨⟨⟨⟨trivial, ⟨rfl, rfl, by decide⟩, ?_⟩, ⟨rfl, rfl, by decide⟩, ?_⟩, trivial, trivial⟩,
    .of_eq (by decide), trivial⟩, ?_, trivial⟩
  · exact fun _ member => (List.not_mem_nil member).elim
  · intro row member held holds _
    cases List.mem_singleton.mp member
    exact holds.unique (FileSystem.holds_of_file (by decide))
  · intro group member dupId listed
    cases List.mem_singleton.mp member
    cases List.mem_singleton.mp listed
    exact List.mem_of_mem_head? rfl

end Filehost.Store
