import Filehost.Store.DedupRuns
import Filehost.Store.Rehash

namespace Filehost.Store

open Filehost.Data Filehost.Database

/-! # The store under uploads and maintenance

Uploads, deletions, the dedup and the rehash command, and the migration that drops
the hashes, in any order and with any failures.  One is over before the next begins:
the update of `delete_one` does not ask that the row is active still, so that two
deletions of one upload that overlap would both count it, and the later time would stay. -/

inductive MaintenanceEvent where
  | upload (row : Upload) (content : List UInt8)
  | delete (target : DeleteTarget) (now : Int) (faults : DeleteFaults)
  | dedup (faults : Uuid → LinkFault) (groups : List (Uuid × List Uuid))
  | rehash (faults : RehashFaults) (ids : List Uuid)
  | clearHashes

def rehashed (env : StoreEnv) (faults : RehashFaults) (ids : List Uuid) (storage : Storage) :
    Storage :=
  ((rehash env faults (some ids) storage).map RehashProgress.storage).getD storage

/-- `Uuid::new_v4` does not repeat itself.  A run of the dedup command may visit its
groups in any order and stop between any two. -/
def maintenanceSystem (env : StoreEnv) : System Storage MaintenanceEvent where
  enabled storage event :=
    match event with
    | .upload row content =>
        row.active = true ∧ row.hash = some (env.blake3 content) ∧
          row.id ∉ storage.uploads.rows.map Upload.id
    | .dedup _ groups => DrawnFrom storage.uploads groups
    | .rehash _ ids => ids.Perm storage.uploads.uploadsMissingHash
    | .delete _ _ _ | .clearHashes => True
  next storage event :=
    match event with
    | .upload row content => storeUpload env row content storage
    | .delete target now faults => (deleteMatching env faults target now storage).1
    | .dedup faults groups => { storage with files := dedupRun env faults groups storage.files }
    | .rehash faults ids => rehashed env faults ids storage
    | .clearHashes => { storage with uploads := storage.uploads.clearHashes }

variable {env : StoreEnv} {storage : Storage} {table : Uploads} {files : FileSystem}

theorem rehashed_eq (faults : RehashFaults) (ids : List Uuid) :
    rehashed env faults ids storage =
      (ids.foldl (rehashOne env faults) (.start storage)).storage := rfl

/-! ## Links lead to uploads -/

/-- Every link in the store leads to the path of an upload. -/
def LinksToUploads (env : StoreEnv) (storage : Storage) : Prop :=
  ∀ path target, storage.files path = some (.symlink target) →
    ∃ row ∈ storage.uploads.rows, target = uuidToPath env.root row.id

/-- Nothing leads to a path that belongs to no upload. -/
theorem LinksToUploads.unlinked {path : Path} (linked : LinksToUploads env storage)
    (foreign : ∀ row ∈ storage.uploads.rows, path ≠ uuidToPath env.root row.id) (link : Path) :
    storage.files link ≠ some (.symlink path) := by
  intro found
  obtain ⟨row, member, same⟩ := linked link path found
  exact foreign row member same

theorem LinksToUploads.temporary (linked : LinksToUploads env storage) (id : Uuid) (link : Path) :
    storage.files link ≠ some (.symlink (temporaryPath (uuidToPath env.root id))) :=
  linked.unlinked (fun row _ same => uuidToPath_ne_temporaryPath env.root row.id id same.symm) link

theorem LinksToUploads.write {path : Path} {node : Option Node} (linked : LinksToUploads env storage)
    (leads : ∀ target, node = some (.symlink target) →
      ∃ row ∈ storage.uploads.rows, target = uuidToPath env.root row.id) :
    LinksToUploads env ⟨storage.uploads, Function.update storage.files path node⟩ := by
  intro link target found
  by_cases same : link = path
  · change Function.update storage.files path node link = _ at found
    rw [same, Function.update_self] at found
    exact leads target found
  · change Function.update storage.files path node link = _ at found
    rw [Function.update_of_ne same] at found
    exact linked link target found

theorem LinksToUploads.of_ids {after : Uploads} (linked : LinksToUploads env storage)
    (kept : storage.uploads.rows.map Upload.id ⊆ after.rows.map Upload.id) :
    LinksToUploads env ⟨after, storage.files⟩ := by
  intro link target found
  obtain ⟨row, member, rfl⟩ := linked link target found
  obtain ⟨later, laterMember, same⟩ := List.mem_map.mp (kept (List.mem_map_of_mem member))
  exact ⟨later, laterMember, by rw [same]⟩

/-! ## What a run of the dedup command leaves at a path -/

/-- What the upload paths hold is what they held, up to `same`. -/
def HeldUpTo (same : List UInt8 → List UInt8 → Prop) (env : StoreEnv) (before after : FileSystem) :
    Prop :=
  ∀ id content, after.Holds (uuidToPath env.root id) content →
    ∃ earlier, before.Holds (uuidToPath env.root id) earlier ∧ same earlier content

/-- The contents of the two files of a pair are `same`. -/
def PairsAlike (same : List UInt8 → List UInt8 → Prop) (env : StoreEnv) (table : Uploads)
    (files : FileSystem) : Prop :=
  ∀ pair ∈ findDedupPairs table, ∀ duplicate canonical,
    files.Holds (uuidToPath env.root pair.dupId) duplicate →
      files.Holds (uuidToPath env.root pair.canonicalId) canonical → same duplicate canonical

section Relinking

variable {same : List UInt8 → List UInt8 → Prop} {before : FileSystem} {pair : DedupPair}
  {faults : Uuid → LinkFault}

theorem HeldUpTo.write_temporary (held : HeldUpTo same env before files)
    (linked : LinksToUploads env ⟨table, files⟩) (id : Uuid) (node : Option Node) :
    HeldUpTo same env before
      (Function.update files (temporaryPath (uuidToPath env.root id)) node) := by
  intro other content later
  obtain ⟨hops, readable⟩ := later
  rw [FileSystem.read_update_of_unlinked (linked.temporary id)
    (uuidToPath_ne_temporaryPath env.root other id)] at readable
  exact held other content ⟨hops, readable⟩

theorem HeldUpTo.relink {replaced original : List UInt8} (equivalence : Equivalence same)
    (held : HeldUpTo same env before files) (alike : PairsAlike same env table before)
    (found : pair ∈ findDedupPairs table)
    (source : files (uuidToPath env.root pair.dupId) = some (.file replaced))
    (target : files (uuidToPath env.root pair.canonicalId) = some (.file original)) :
    HeldUpTo same env before
      (Function.update files (uuidToPath env.root pair.dupId)
        (some (.symlink (uuidToPath env.root pair.canonicalId)))) := by
  have apart : uuidToPath env.root pair.canonicalId ≠ uuidToPath env.root pair.dupId :=
    fun equal => canonical_ne_duplicate found found (uuidToPath_inj.mp equal)
  intro id content later
  obtain ⟨hops, readable⟩ := later
  rcases FileSystem.read_relinked source target apart readable with unchanged | ⟨rfl, through⟩
  · exact held id content unchanged
  · -- the reader gets the canonical file in place of the duplicate
    obtain ⟨own, ownHeld, ownSame⟩ := held id replaced through
    obtain ⟨duplicate, dupHeld, dupSame⟩ := held _ _ (FileSystem.holds_of_file source)
    obtain ⟨canonical, canonicalHeld, canonicalSame⟩ := held _ _ (FileSystem.holds_of_file target)
    refine ⟨own, ownHeld, equivalence.trans ownSame (equivalence.trans (equivalence.symm dupSame) ?_)⟩
    exact equivalence.trans (alike pair found duplicate canonical dupHeld canonicalHeld) canonicalSame

/-- The state of the files during a run. -/
structure Relinking (same : List UInt8 → List UInt8 → Prop) (env : StoreEnv) (table : Uploads)
    (before files : FileSystem) : Prop where
  linked : LinksToUploads env ⟨table, files⟩
  held : HeldUpTo same env before files

theorem PairRows.canonical_listed {hash : List UInt8} {duplicate canonical : Upload}
    (rows : PairRows table pair hash duplicate canonical) :
    ∃ row ∈ table.rows, uuidToPath env.root pair.canonicalId = uuidToPath env.root row.id :=
  ⟨canonical, (canonicalOf_mem rows.newest).1, by rw [rows.canonicalId]⟩

theorem Relinking.leads (found : pair ∈ findDedupPairs table) {target : Path}
    (link : some (Node.symlink (uuidToPath env.root pair.canonicalId)) = some (.symlink target)) :
    ∃ row ∈ table.rows, target = uuidToPath env.root row.id := by
  cases link
  obtain ⟨hash, duplicate, canonical, rows⟩ := mem_findDedupPairs found
  exact rows.canonical_listed

theorem Relinking.linkDuplicate (equivalence : Equivalence same)
    (alike : PairsAlike same env table before) (found : pair ∈ findDedupPairs table)
    (relinking : Relinking same env table before files)
    (regular : isRegularFile files (uuidToPath env.root pair.canonicalId) = true) :
    Relinking same env table before (linkDuplicate env faults pair.canonicalId files pair.dupId) ∧
      isRegularFile (Store.linkDuplicate env faults pair.canonicalId files pair.dupId)
        (uuidToPath env.root pair.canonicalId) = true := by
  simp only [Store.linkDuplicate]
  split
  · rename_i held
    obtain ⟨replaced, source⟩ := (isRegularFile_iff _).mp held
    obtain ⟨original, target⟩ := (isRegularFile_iff _).mp regular
    have canonicalApart := uuidToPath_ne_temporaryPath env.root pair.canonicalId pair.dupId
    have duplicateApart := uuidToPath_ne_temporaryPath env.root pair.dupId pair.dupId
    have apart : uuidToPath env.root pair.canonicalId ≠ uuidToPath env.root pair.dupId :=
      fun equal => canonical_ne_duplicate found found (uuidToPath_inj.mp equal)
    have cleared : Relinking same env table before (Function.update files
        (temporaryPath (uuidToPath env.root pair.dupId)) none) :=
      ⟨relinking.linked.write (fun _ link => by cases link),
        relinking.held.write_temporary relinking.linked pair.dupId none⟩
    rw [replaceWithSymlink_eq]
    cases faults pair.dupId with
    | remove => exact ⟨relinking, regular⟩
    | symlink => exact ⟨cleared, by rwa [isRegularFile_update canonicalApart]⟩
    | rename =>
        exact ⟨⟨relinking.linked.write fun _ => Relinking.leads found,
          relinking.held.write_temporary relinking.linked pair.dupId _⟩,
          by rwa [isRegularFile_update canonicalApart]⟩
    | none =>
        refine ⟨⟨cleared.linked.write fun _ => Relinking.leads found, ?_⟩, ?_⟩
        · exact cleared.held.relink equivalence alike found
            ((Function.update_of_ne duplicateApart ..).trans source)
            ((Function.update_of_ne canonicalApart ..).trans target)
        · rwa [isRegularFile_update apart, isRegularFile_update canonicalApart]
  · exact ⟨relinking, regular⟩

theorem Relinking.linkDuplicates {canonicalId : Uuid} {dupIds : List Uuid}
    (equivalence : Equivalence same) (alike : PairsAlike same env table before)
    (drawn : ∀ dupId ∈ dupIds, ⟨dupId, canonicalId⟩ ∈ findDedupPairs table)
    (relinking : Relinking same env table before files)
    (regular : isRegularFile files (uuidToPath env.root canonicalId) = true) :
    Relinking same env table before
      (dupIds.foldl (Store.linkDuplicate env faults canonicalId) files) := by
  induction dupIds generalizing files with
  | nil => exact relinking
  | cons dupId rest ih =>
      obtain ⟨next, nextRegular⟩ := @Relinking.linkDuplicate env table files same before
        ⟨dupId, canonicalId⟩ faults equivalence alike (drawn dupId List.mem_cons_self) relinking regular
      exact ih (fun other member => drawn other (List.mem_cons_of_mem _ member)) next nextRegular

theorem Relinking.dedupRun {groups : List (Uuid × List Uuid)} (equivalence : Equivalence same)
    (alike : PairsAlike same env table before) (drawn : DrawnFrom table groups)
    (relinking : Relinking same env table before files) :
    Relinking same env table before (Store.dedupRun env faults groups files) := by
  unfold Store.dedupRun
  induction groups generalizing files with
  | nil => exact relinking
  | cons group rest ih =>
      refine ih (fun other member => drawn other (List.mem_cons_of_mem _ member)) ?_
      unfold linkGroup
      split
      · exact relinking.linkDuplicates equivalence alike (drawn group List.mem_cons_self) ‹_›
      · exact relinking

end Relinking

/-! ## Stored hashes -/

/-- Whatever a reader gets for an upload, deleted or not, has the hash stored for it. -/
def HashesHeld (env : StoreEnv) (storage : Storage) : Prop :=
  ∀ row ∈ storage.uploads.rows, ∀ hash, row.hash = some hash → ∀ content,
    storage.files.Holds (uuidToPath env.root row.id) content → env.blake3 content = hash

structure Honest (env : StoreEnv) (storage : Storage) : Prop where
  linked : LinksToUploads env storage
  hashes : HashesHeld env storage

def SameHash (env : StoreEnv) (left right : List UInt8) : Prop := env.blake3 left = env.blake3 right

theorem sameHash_equivalence (env : StoreEnv) : Equivalence (SameHash env) :=
  ⟨fun _ => rfl, Eq.symm, Eq.trans⟩

theorem HashesHeld.carried {after : Storage} (hashes : HashesHeld env storage)
    (rows : ∀ later ∈ after.uploads.rows, ∀ hash, later.hash = some hash →
      ∃ earlier ∈ storage.uploads.rows, earlier.id = later.id ∧ earlier.hash = some hash)
    (held : HeldUpTo (SameHash env) env storage.files after.files) : HashesHeld env after := by
  intro later member hash stored content readable
  obtain ⟨earlier, earlierMember, same, earlierStored⟩ := rows later member hash stored
  obtain ⟨before, beforeHeld, alike⟩ := held later.id content readable
  rw [← same] at beforeHeld
  rw [← hashes earlier earlierMember hash earlierStored before beforeHeld]
  exact alike.symm

theorem HeldUpTo.refl : HeldUpTo (SameHash env) env files files :=
  fun _ content held => ⟨content, held, rfl⟩

theorem Honest.pairsAlike (honest : Honest env storage) :
    PairsAlike (SameHash env) env storage.uploads storage.files := by
  intro pair found duplicate canonical dupHeld canonicalHeld
  obtain ⟨hash, dupRow, canonicalRow, rows⟩ := mem_findDedupPairs found
  obtain ⟨listed, -, hashed⟩ := canonicalOf_mem rows.newest
  rw [rows.dupId] at dupHeld
  rw [rows.canonicalId] at canonicalHeld
  exact (honest.hashes dupRow rows.member hash rows.hashed duplicate dupHeld).trans
    (honest.hashes canonicalRow listed hash hashed canonical canonicalHeld).symm

/-! ### One step -/

theorem mem_storeUpload {row other : Upload} {content : List UInt8}
    (member : other ∈ (storeUpload env row content storage).uploads.rows) :
    other = row ∨ other ∈ storage.uploads.rows := by
  change other ∈ ((storage.uploads.insertUploadRow row).getD storage.uploads).rows at member
  cases inserted : storage.uploads.insertUploadRow row with
  | none =>
      rw [inserted] at member
      exact .inr member
  | some after =>
      rw [inserted, Option.getD_some, (Uploads.insertUploadRow_rows inserted).1] at member
      exact List.mem_cons.mp member

theorem storeUpload_keeps {row : Upload} {content : List UInt8} :
    storage.uploads.rows ⊆ (storeUpload env row content storage).uploads.rows := by
  intro other member
  change other ∈ ((storage.uploads.insertUploadRow row).getD storage.uploads).rows
  cases inserted : storage.uploads.insertUploadRow row with
  | none => exact member
  | some after =>
      rw [Option.getD_some, (Uploads.insertUploadRow_rows inserted).1]
      exact List.mem_cons_of_mem _ member

/-- A fresh file is nobody else's. -/
theorem LinksToUploads.read_storeUpload {row other : Upload} {content : List UInt8}
    (linked : LinksToUploads env storage) (fresh : row.id ∉ storage.uploads.rows.map Upload.id)
    (member : other ∈ storage.uploads.rows) (hops : Nat) :
    (storeUpload env row content storage).files.read hops (uuidToPath env.root other.id) =
      storage.files.read hops (uuidToPath env.root other.id) := by
  have foreign : ∀ known ∈ storage.uploads.rows,
      uuidToPath env.root row.id ≠ uuidToPath env.root known.id := by
    intro known knownMember same
    exact fresh (List.mem_map.mpr ⟨known, knownMember, (uuidToPath_inj.mp same).symm⟩)
  exact FileSystem.read_update_of_unlinked (linked.unlinked foreign)
    (fun same => foreign other member same.symm) hops

theorem storeUpload_own (row : Upload) (content : List UInt8) :
    (storeUpload env row content storage).files (uuidToPath env.root row.id) =
      some (.file content) :=
  Function.update_self ..

theorem Honest.storeUpload {row : Upload} {content : List UInt8} (honest : Honest env storage)
    (hashed : row.hash = some (env.blake3 content))
    (fresh : row.id ∉ storage.uploads.rows.map Upload.id) :
    Honest env (Store.storeUpload env row content storage) := by
  constructor
  · have written := @LinksToUploads.write env storage (uuidToPath env.root row.id)
      (some (.file content)) honest.linked fun _ link => by cases link
    have kept : storage.uploads.rows ⊆ (Store.storeUpload env row content storage).uploads.rows :=
      storeUpload_keeps
    exact written.of_ids (List.map_subset _ kept)
  · intro other member hash stored held heldThere
    rcases mem_storeUpload member with rfl | earlier
    · rw [hashed] at stored
      cases stored
      rw [heldThere.unique (FileSystem.holds_of_file (storeUpload_own other content))]
    · obtain ⟨hops, readable⟩ := heldThere
      rw [honest.linked.read_storeUpload fresh earlier] at readable
      exact honest.hashes other earlier hash stored held ⟨hops, readable⟩

theorem mem_setAllDeleted {ids : List Uuid} {now : Int} {later : Upload}
    (member : later ∈ (table.setAllDeleted ids now).rows) :
    ∃ earlier ∈ table.rows, earlier.id = later.id ∧ earlier.hash = later.hash := by
  induction ids generalizing table with
  | nil => exact ⟨later, member, rfl, rfl⟩
  | cons id rest ih =>
      obtain ⟨middle, middleMember, sameId, sameHash⟩ := ih member
      rcases Uploads.mem_setDeleted.mp middleMember with ⟨earlier, -⟩ | ⟨earlier, found, -, rfl⟩
      · exact ⟨middle, earlier, sameId, sameHash⟩
      · exact ⟨earlier, found, sameId, sameHash⟩

theorem setAllDeleted_ids (ids : List Uuid) (now : Int) :
    (table.setAllDeleted ids now).rows.map Upload.id = table.rows.map Upload.id := by
  induction ids generalizing table with
  | nil => rfl
  | cons id rest ih => exact ih.trans (Uploads.map_ids_markDeleted table.rows id now)

theorem Honest.deleteMatching (honest : Honest env storage) (target : DeleteTarget) (now : Int)
    (faults : DeleteFaults) : Honest env (Store.deleteMatching env faults target now storage).1 := by
  have uploads := deleteMatching_uploads env faults now target storage
  have files := deleteMatching_files env faults now target storage
  constructor
  · intro link path found
    rw [files, FileSystem.without] at found
    split at found
    · cases found
    · have kept : storage.uploads.rows.map Upload.id ⊆
          (Store.deleteMatching env faults target now storage).1.uploads.rows.map Upload.id := by
        rw [uploads, setAllDeleted_ids]
        exact List.Subset.refl _
      exact honest.linked.of_ids kept link path found
  · refine honest.hashes.carried (fun later member hash stored => ?_) fun id content held => ?_
    · rw [uploads] at member
      obtain ⟨earlier, found, sameId, sameHash⟩ := mem_setAllDeleted member
      exact ⟨earlier, found, sameId, sameHash.trans stored⟩
    · rw [files] at held
      exact ⟨content, FileSystem.holds_of_without held, rfl⟩

theorem Honest.dedupRun {groups : List (Uuid × List Uuid)} {faults : Uuid → LinkFault}
    (honest : Honest env storage) (drawn : DrawnFrom storage.uploads groups) :
    Honest env { storage with files := Store.dedupRun env faults groups storage.files } := by
  have relinked : Relinking (SameHash env) env storage.uploads storage.files
      (Store.dedupRun env faults groups storage.files) :=
    .dedupRun (sameHash_equivalence env) honest.pairsAlike drawn ⟨honest.linked, .refl⟩
  exact ⟨relinked.linked, honest.hashes.carried
    (fun later member hash stored => ⟨later, member, rfl, stored⟩) relinked.held⟩

theorem setHash_ids (selects : Upload → Bool) (hash : Option (List UInt8)) :
    (table.setHash selects hash).rows.map Upload.id = table.rows.map Upload.id :=
  Uploads.map_ids_withHash table.rows selects hash

theorem Honest.clearHashes (honest : Honest env storage) :
    Honest env { storage with uploads := storage.uploads.clearHashes } := by
  refine ⟨honest.linked.of_ids ?_, honest.hashes.carried (fun later member hash stored => ?_) .refl⟩
  · rw [Uploads.clearHashes, setHash_ids]
    exact List.Subset.refl _
  · obtain ⟨earlier, found, rfl⟩ := List.mem_map.mp member
    split at stored
    · cases stored
    · exact ⟨earlier, found, by rw [if_neg ‹_›], stored⟩

theorem rehashedRow_hash {faults : RehashFaults} {row : Upload} {hash : List UInt8}
    (stored : (rehashedRow env faults files row).hash = some hash) :
    row.hash = some hash ∨ ∃ content, files.Holds (uuidToPath env.root row.id) content ∧
      env.blake3 content = hash := by
  unfold rehashedRow newHash fileHash at stored
  split at stored
  · exact .inl stored
  · rename_i computed found
    split at found
    · cases found
    · split at found
      · cases found
      · obtain ⟨content, readable, same⟩ := Option.map_eq_some_iff.mp found
        refine .inr ⟨content, ⟨_, readable⟩, ?_⟩
        rw [same]
        exact Option.some.inj stored

theorem rehashed_files (faults : RehashFaults) (ids : List Uuid) :
    (rehashed env faults ids storage).files = storage.files :=
  foldl_rehashOne_files ids

theorem mem_rehashed {faults : RehashFaults} {ids : List Uuid} {later : Upload}
    (member : later ∈ (rehashed env faults ids storage).uploads.rows) :
    ∃ earlier ∈ storage.uploads.rows,
      later = earlier ∨ later = rehashedRow env faults storage.files earlier := by
  rw [rehashed_eq, foldl_rehashOne_rows] at member
  obtain ⟨earlier, found, rfl⟩ := List.mem_map.mp member
  refine ⟨earlier, found, ?_⟩
  split
  · exact .inr rfl
  · exact .inl rfl

theorem rehashed_ids (faults : RehashFaults) (ids : List Uuid) :
    (rehashed env faults ids storage).uploads.rows.map Upload.id =
      storage.uploads.rows.map Upload.id := by
  rw [rehashed_eq, foldl_rehashOne_rows, List.map_map]
  apply List.map_congr_left
  intro row _
  simp only [Function.comp_apply]
  split
  · exact rehashedRow_id row
  · rfl

theorem Honest.rehashed (honest : Honest env storage) (faults : RehashFaults) (ids : List Uuid) :
    Honest env (Store.rehashed env faults ids storage) := by
  constructor
  · intro link target found
    rw [rehashed_files] at found
    have kept : storage.uploads.rows.map Upload.id ⊆
        (Store.rehashed env faults ids storage).uploads.rows.map Upload.id := by
      rw [rehashed_ids]
      exact List.Subset.refl _
    exact honest.linked.of_ids kept link target found
  · intro later member hash stored content held
    rw [rehashed_files] at held
    obtain ⟨earlier, found, rfl | rfl⟩ := mem_rehashed member
    · exact honest.hashes _ found hash stored content held
    · rw [rehashedRow_id] at held
      rcases rehashedRow_hash stored with before | ⟨read, readHeld, same⟩
      · exact honest.hashes earlier found hash before content held
      · rw [held.unique readHeld, same]

theorem Honest.next {event : MaintenanceEvent} (honest : Honest env storage)
    (enabled : (maintenanceSystem env).enabled storage event) :
    Honest env ((maintenanceSystem env).next storage event) := by
  cases event with
  | upload row content => exact honest.storeUpload enabled.2.1 enabled.2.2
  | delete target now faults => exact honest.deleteMatching target now faults
  | dedup faults groups => exact honest.dedupRun enabled
  | rehash faults ids => exact honest.rehashed faults ids
  | clearHashes => exact honest.clearHashes

theorem honest_empty : Honest env .empty :=
  ⟨fun _ _ found => (nomatch found), fun _ member => (List.not_mem_nil member).elim⟩

theorem run_honest {events : List MaintenanceEvent}
    (run : (maintenanceSystem env).Run .empty events storage) : Honest env storage :=
  run.invariant honest_empty fun _ _ honest enabled => honest.next enabled

/-- Whatever is uploaded, deleted, linked, hashed again or dropped, and whatever of it
fails: the hash stored for an active upload is that of what is read for it. -/
theorem run_hashesContent {events : List MaintenanceEvent}
    (run : (maintenanceSystem env).Run .empty events storage) : HashesContent env storage := by
  intro row member _ content hash readable stored
  exact ((run_honest run).hashes row member hash stored content ⟨_, readable⟩).symm

/-! ## Two copies, hashed again -/

def noRehashFaults : RehashFaults := ⟨fun _ => false, fun _ => false⟩

def copiedEvents : List MaintenanceEvent :=
  [.rehash noRehashFaults [secondUuid, firstUuid], .clearHashes,
    .upload (emptyUpload secondUuid 2 "def") [], .upload (emptyUpload firstUuid 1 "abc") []]

def copiedState : Storage := (maintenanceSystem plainEnv).after .empty copiedEvents

theorem copied_hashed : HashesContent plainEnv copiedState ∧
    copiedState.uploads.rows.map Upload.hash = [some emptyDigest, some emptyDigest] :=
  ⟨run_hashesContent (.of_admits ⟨⟨⟨⟨trivial, rfl, rfl, by decide⟩, rfl, rfl, by decide⟩, trivial⟩,
    .of_eq (by decide)⟩), by decide⟩

end Filehost.Store
