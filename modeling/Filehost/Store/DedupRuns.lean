import Filehost.Store.Sharing

namespace Filehost.Store

open Filehost.Database

/-! # Files replaced by links

A file that is replaced by a link to a file with the same content reads the same,
one link later, as long as the targets of such links stay what they are. -/

/-- Outside of `scratch`, `after` is `before` with some files replaced by links to
anchors of the same content. -/
structure Relinked (anchors scratch : Path → Prop) (before after : FileSystem) : Prop where
  anchored : ∀ path, anchors path → after path = before path
  elsewhere : ∀ path, ¬scratch path → after path = before path ∨
    ∃ content target, anchors target ∧ before path = some (.file content) ∧
      before target = some (.file content) ∧ after path = some (.symlink target)

section Relinked

variable {anchors scratch : Path → Prop} {before after : FileSystem} {path target : Path}
  {content : List UInt8}

theorem Relinked.refl : Relinked anchors scratch before before :=
  ⟨fun _ _ => rfl, fun _ _ => .inl rfl⟩

/-- Nothing is promised of the scratch paths. -/
theorem Relinked.scribble (relinked : Relinked anchors scratch before after)
    (unanchored : ¬anchors path) (temporary : scratch path) (node : Option Node) :
    Relinked anchors scratch before (Function.update after path node) := by
  constructor
  · intro other anchored
    have apart : other ≠ path := fun same => unanchored (same ▸ anchored)
    rw [Function.update_of_ne apart]
    exact relinked.anchored other anchored
  · intro other lasting
    have apart : other ≠ path := fun same => lasting (same ▸ temporary)
    rw [Function.update_of_ne apart]
    exact relinked.elsewhere other lasting

theorem Relinked.link (relinked : Relinked anchors scratch before after)
    (unanchored : ¬anchors path) (lasting : ¬scratch path) (anchored : anchors target)
    (held : after path = some (.file content)) (same : before target = some (.file content)) :
    Relinked anchors scratch before (Function.update after path (some (.symlink target))) := by
  have original : before path = some (.file content) := by
    rcases relinked.elsewhere path lasting with unchanged | ⟨_, other, -, -, -, linked⟩
    · rw [← unchanged, held]
    · rw [held] at linked
      cases linked
  constructor
  · intro other anchor
    have apart : other ≠ path := fun equal => unanchored (equal ▸ anchor)
    rw [Function.update_of_ne apart]
    exact relinked.anchored other anchor
  · intro other otherLasting
    by_cases equal : other = path
    · rw [equal, Function.update_self]
      exact .inr ⟨content, target, anchored, original, same, rfl⟩
    · rw [Function.update_of_ne equal]
      exact relinked.elsewhere other otherLasting

theorem read_of_file {files : FileSystem} (held : files path = some (.file content)) (hops : Nat) :
    files.read hops path = some content := by
  rw [FileSystem.read, held]

theorem Relinked.read_file (relinked : Relinked anchors scratch before after)
    (lasting : ¬scratch path) (held : before path = some (.file content)) (hops : Nat) :
    after.read (hops + 1) path = some content := by
  rcases relinked.elsewhere path lasting with
    unchanged | ⟨_, target, anchored, original, same, linked⟩
  · exact read_of_file (unchanged.trans held) _
  · cases held.symm.trans original
    rw [FileSystem.read, linked]
    exact read_of_file ((relinked.anchored target anchored).trans same) _

theorem Relinked.symlink (relinked : Relinked anchors scratch before after)
    (lasting : ¬scratch path) (held : before path = some (.symlink target)) :
    after path = some (.symlink target) := by
  rcases relinked.elsewhere path lasting with unchanged | ⟨_, _, -, original, -, -⟩
  · exact unchanged.trans held
  · cases held.symm.trans original

/-- What was read without passing a scratch path is read through one link more. -/
theorem Relinked.read (relinked : Relinked anchors scratch before after) {hops : Nat}
    (lasting : ¬scratch path) (apart : ∀ target ∈ before.linkTargets hops path, ¬scratch target)
    (readable : before.read hops path = some content) :
    after.read (hops + 1) path = some content := by
  induction hops generalizing path with
  | zero =>
      rw [FileSystem.read] at readable
      split at readable
      · contradiction
      · cases readable
        exact relinked.read_file lasting ‹_› 0
      · contradiction
  | succ hops ih =>
      rw [FileSystem.read] at readable
      split at readable
      · contradiction
      · cases readable
        exact relinked.read_file lasting ‹_› _
      · rename_i target found
        rw [FileSystem.linkTargets, found] at apart
        rw [FileSystem.read, relinked.symlink lasting found]
        exact ih (apart target List.mem_cons_self)
          (fun other member => apart other (List.mem_cons_of_mem _ member)) readable

end Relinked

/-! # Runs of the dedup command -/

/-- The groups in the order they are visited.  A run that stops early, or in which
a look at a file fails, leaves out the rest or what was looked at. -/
def dedupRun (env : StoreEnv) (faults : Uuid → LinkFault) (groups : List (Uuid × List Uuid))
    (files : FileSystem) : FileSystem :=
  groups.foldl (linkGroup env faults) files

def DrawnFrom (table : Uploads) (groups : List (Uuid × List Uuid)) : Prop :=
  ∀ group ∈ groups, ∀ dupId ∈ group.2, ⟨dupId, group.1⟩ ∈ findDedupPairs table

def CoversPairs (table : Uploads) (groups : List (Uuid × List Uuid)) : Prop :=
  ∀ pair ∈ findDedupPairs table, ∃ group ∈ groups, group.1 = pair.canonicalId ∧ pair.dupId ∈ group.2

def temporaryPath (path : Path) : Path := path.withFileName (path.fileName ++ ".dedup-tmp".toList)

/-- The canonical files. -/
def IsCanonical (env : StoreEnv) (table : Uploads) (path : Path) : Prop :=
  ∃ pair ∈ findDedupPairs table, path = uuidToPath env.root pair.canonicalId

/-- The temporary names beside the duplicates. -/
def IsTemporary (env : StoreEnv) (table : Uploads) (path : Path) : Prop :=
  ∃ pair ∈ findDedupPairs table, path = temporaryPath (uuidToPath env.root pair.dupId)

/-- What is stored for an active row is the hash of its content. -/
def HashesContent (env : StoreEnv) (storage : Storage) : Prop :=
  ∀ row ∈ storage.uploads.rows, row.active = true → ∀ content hash,
    storage.content env row = some content → row.hash = some hash → hash = env.blake3 content

def NoCollisions (env : StoreEnv) (storage : Storage) : Prop :=
  ∀ left ∈ storage.uploads.rows, ∀ right ∈ storage.uploads.rows, ∀ first second,
    storage.content env left = some first → storage.content env right = some second →
      env.blake3 first = env.blake3 second → first = second

/-- No active upload is read through a temporary name. -/
def ReadsNoTemporary (env : StoreEnv) (storage : Storage) : Prop :=
  ∀ row ∈ storage.uploads.rows, row.active = true → ∀ hops,
    (storage.files.read hops (uuidToPath env.root row.id)).isSome = true →
      ∀ target ∈ storage.files.linkTargets hops (uuidToPath env.root row.id),
        ¬IsTemporary env storage.uploads target

variable {env : StoreEnv} {table : Uploads} {storage : Storage} {faults : Uuid → LinkFault}
  {groups : List (Uuid × List Uuid)} {files : FileSystem}

theorem dedup_uploads (dryRun : Bool) : (dedup env dryRun faults storage).uploads = storage.uploads := by
  cases dryRun <;> rfl

theorem dedup_files : (dedup env false faults storage).files =
    dedupRun env faults (groupByCanonical (findDedupPairs storage.uploads)) storage.files := rfl

theorem groupByCanonical_drawn (table : Uploads) :
    DrawnFrom table (groupByCanonical (findDedupPairs table)) := by
  intro group member dupId listed
  obtain ⟨canonicalId, -, rfl⟩ := List.mem_map.mp member
  obtain ⟨pair, selected, rfl⟩ := List.mem_map.mp listed
  obtain ⟨found, same⟩ := List.mem_filter.mp selected
  cases of_decide_eq_true same
  exact found

theorem groupByCanonical_covers (table : Uploads) :
    CoversPairs table (groupByCanonical (findDedupPairs table)) := by
  intro pair member
  refine ⟨_, List.mem_map_of_mem (List.mem_eraseDups.mpr (List.mem_map_of_mem member)), rfl, ?_⟩
  exact List.mem_map_of_mem (List.mem_filter.mpr ⟨member, decide_eq_true rfl⟩)

/-! ## Pairs -/

theorem newest_mem {rows : List Upload} {best : Option Upload} {row : Upload}
    (newest : rows.foldl (fun best row => if best.all (newerUpload row) then some row else best)
      best = some row) : row ∈ rows ∨ best = some row := by
  induction rows generalizing best with
  | nil => exact .inr newest
  | cons first rest ih =>
      rcases ih newest with later | chosen
      · exact .inl (List.mem_cons_of_mem _ later)
      · dsimp only at chosen
        split at chosen
        · cases chosen
          exact .inl List.mem_cons_self
        · exact .inr chosen

theorem canonicalOf_mem {hash : List UInt8} {row : Upload}
    (found : canonicalOf table hash = some row) :
    row ∈ table.rows ∧ row.active = true ∧ row.hash = some hash := by
  rcases newest_mem found with member | absent
  · obtain ⟨listed, chosen⟩ := List.mem_filter.mp member
    simp only [Bool.and_eq_true, decide_eq_true_eq] at chosen
    exact ⟨listed, chosen⟩
  · contradiction

/-- The rows of a pair. -/
structure PairRows (table : Uploads) (pair : DedupPair) (hash : List UInt8)
    (duplicate canonical : Upload) : Prop where
  member : duplicate ∈ table.rows
  active : duplicate.active = true
  hashed : duplicate.hash = some hash
  newest : canonicalOf table hash = some canonical
  dupId : pair.dupId = duplicate.id
  canonicalId : pair.canonicalId = canonical.id
  apart : duplicate.id ≠ canonical.id

theorem mem_findDedupPairs {pair : DedupPair} (found : pair ∈ findDedupPairs table) :
    ∃ hash duplicate canonical, PairRows table pair hash duplicate canonical := by
  obtain ⟨row, member, chosen⟩ := List.mem_filterMap.mp found
  obtain ⟨hash, hashed, chosen⟩ := Option.bind_eq_some_iff.mp chosen
  obtain ⟨canonical, newest, chosen⟩ := Option.bind_eq_some_iff.mp chosen
  split at chosen
  · rename_i selected
    cases chosen
    simp only [Bool.and_eq_true, decide_eq_true_eq] at selected
    exact ⟨hash, row, canonical, member, selected.1, hashed, newest, rfl, rfl, selected.2⟩
  · contradiction

/-- A canonical upload is no duplicate. -/
theorem canonical_ne_duplicate {pair other : DedupPair} (found : pair ∈ findDedupPairs table)
    (otherFound : other ∈ findDedupPairs table) : pair.canonicalId ≠ other.dupId := by
  intro same
  obtain ⟨hash, _, canonical, rows⟩ := mem_findDedupPairs found
  obtain ⟨otherHash, duplicate, _, otherRows⟩ := mem_findDedupPairs otherFound
  obtain ⟨listed, -, hashed⟩ := canonicalOf_mem rows.newest
  have equal : canonical = duplicate :=
    Uploads.eq_of_same_id listed otherRows.member
      (rows.canonicalId.symm.trans (same.trans otherRows.dupId))
  have hashes : otherHash = hash := by
    have twice := otherRows.hashed
    rw [← equal, hashed] at twice
    exact (Option.some.inj twice).symm
  have newest := otherRows.newest
  rw [hashes, rows.newest] at newest
  cases newest
  exact otherRows.apart (congrArg Upload.id equal).symm

/-! ## Names -/

theorem hexEncode_length (bytes : List UInt8) : (hexEncode bytes).length = 2 * bytes.length := by
  induction bytes with
  | nil => rfl
  | cons byte rest ih =>
      rw [hexEncode, List.flatMap_cons, List.length_append, ← hexEncode, ih]
      simp only [List.length_cons, List.length_nil]
      omega

theorem Uuid.toString_length (uuid : Uuid) : uuid.toString.length = 36 := by
  simp [Uuid.toString, hexEncode_length, uuid.size]

theorem fileName_uuidToPath (root : Path) (uuid : Uuid) :
    (uuidToPath root uuid).fileName = uuid.toString := by
  simp [uuidToPath, Path.fileName]

theorem fileName_temporaryPath (path : Path) :
    (temporaryPath path).fileName = path.fileName ++ ".dedup-tmp".toList := by
  simp [temporaryPath, Path.withFileName, Path.fileName]

theorem uuidToPath_ne_temporaryPath (root : Path) (uuid other : Uuid) :
    uuidToPath root uuid ≠ temporaryPath (uuidToPath root other) := by
  intro same
  have names := congrArg (fun path : Path => path.fileName.length) same
  simp only [fileName_temporaryPath, fileName_uuidToPath, List.length_append,
    Uuid.toString_length] at names
  have suffix : ".dedup-tmp".toList.length = 10 := by decide
  omega

theorem uuidToPath_not_temporary (uuid : Uuid) :
    ¬IsTemporary env table (uuidToPath env.root uuid) := by
  intro temporary
  obtain ⟨pair, -, same⟩ := temporary
  exact uuidToPath_ne_temporaryPath env.root uuid pair.dupId same

theorem canonical_not_temporary {path : Path} (canonical : IsCanonical env table path) :
    ¬IsTemporary env table path := by
  obtain ⟨pair, -, rfl⟩ := canonical
  exact uuidToPath_not_temporary pair.canonicalId

theorem duplicate_not_canonical {pair : DedupPair} (found : pair ∈ findDedupPairs table) :
    ¬IsCanonical env table (uuidToPath env.root pair.dupId) := by
  intro canonical
  obtain ⟨other, otherFound, same⟩ := canonical
  exact canonical_ne_duplicate otherFound found (uuidToPath_inj.mp same).symm

/-! ## One file, one group, one run -/

theorem clear_temporary (files : FileSystem) (path : Path) :
    (files.removeFile path).getD files = Function.update files path none := by
  unfold FileSystem.removeFile
  split
  · rfl
  · rename_i absent
    have empty : files path = none := by simpa using absent
    rw [Option.getD_none, ← empty, Function.update_eq_self]

theorem replaceWithSymlink_eq (fault : LinkFault) (files : FileSystem) (path target : Path) :
    replaceWithSymlink fault files path target =
      match fault with
      | .remove => files
      | .symlink => Function.update files (temporaryPath path) none
      | .rename => Function.update files (temporaryPath path) (some (.symlink target))
      | .none => Function.update (Function.update files (temporaryPath path) none) path
          (some (.symlink target)) := by
  unfold replaceWithSymlink
  rw [← temporaryPath]
  dsimp only
  rw [clear_temporary, Function.update_idem]
  cases fault with
  | remove => rfl
  | symlink => rfl
  | rename => rfl
  | none => simp [FileSystem.rename]

def RelinkedBy (env : StoreEnv) (storage : Storage) (files : FileSystem) : Prop :=
  Relinked (IsCanonical env storage.uploads) (IsTemporary env storage.uploads) storage.files files

theorem isRegularFile_iff (path : Path) :
    isRegularFile files path = true ↔ ∃ content, files path = some (.file content) := by
  unfold isRegularFile
  split
  · exact iff_of_true rfl ⟨_, ‹_›⟩
  · rename_i other
    exact iff_of_false Bool.false_ne_true fun held => held.elim fun content held => other content held

theorem PairRows.same_content {pair : DedupPair} {hash : List UInt8} {duplicate canonical : Upload}
    (rows : PairRows storage.uploads pair hash duplicate canonical)
    (honest : HashesContent env storage) (apart : NoCollisions env storage)
    {first second : List UInt8}
    (left : storage.files (uuidToPath env.root pair.dupId) = some (.file first))
    (right : storage.files (uuidToPath env.root pair.canonicalId) = some (.file second)) :
    first = second := by
  obtain ⟨listed, active, hashed⟩ := canonicalOf_mem rows.newest
  rw [rows.dupId] at left
  rw [rows.canonicalId] at right
  have leftContent : storage.content env duplicate = some first := read_of_file left _
  have rightContent : storage.content env canonical = some second := read_of_file right _
  have leftHash := honest duplicate rows.member rows.active first hash leftContent rows.hashed
  have rightHash := honest canonical listed active second hash rightContent hashed
  exact apart duplicate rows.member canonical listed first second leftContent rightContent
    (leftHash.symm.trans rightHash)

/-- A duplicate that still is a file has the content of its canonical file. -/
theorem RelinkedBy.canonical_content {pair : DedupPair} {content : List UInt8}
    (relinked : RelinkedBy env storage files) (honest : HashesContent env storage)
    (apart : NoCollisions env storage) (found : pair ∈ findDedupPairs storage.uploads)
    (regular : isRegularFile storage.files (uuidToPath env.root pair.canonicalId) = true)
    (held : files (uuidToPath env.root pair.dupId) = some (.file content)) :
    storage.files (uuidToPath env.root pair.canonicalId) = some (.file content) := by
  obtain ⟨second, original⟩ := (isRegularFile_iff _).mp regular
  have lasting : ¬IsTemporary env storage.uploads (uuidToPath env.root pair.dupId) :=
    uuidToPath_not_temporary pair.dupId
  rcases relinked.elsewhere _ lasting with unchanged | ⟨_, _, -, -, -, linked⟩
  · obtain ⟨hash, duplicate, canonical, rows⟩ := mem_findDedupPairs found
    have same := rows.same_content honest apart (unchanged.symm.trans held) original
    rw [original, same]
  · cases held.symm.trans linked

theorem relinkedBy_linkDuplicate {pair : DedupPair} (relinked : RelinkedBy env storage files)
    (honest : HashesContent env storage) (apart : NoCollisions env storage)
    (found : pair ∈ findDedupPairs storage.uploads)
    (regular : isRegularFile storage.files (uuidToPath env.root pair.canonicalId) = true) :
    RelinkedBy env storage (linkDuplicate env faults pair.canonicalId files pair.dupId) := by
  simp only [linkDuplicate]
  split
  · rename_i held
    obtain ⟨content, held⟩ := (isRegularFile_iff _).mp held
    have temporary : IsTemporary env storage.uploads
        (temporaryPath (uuidToPath env.root pair.dupId)) := ⟨pair, found, rfl⟩
    have unanchored : ¬IsCanonical env storage.uploads
        (temporaryPath (uuidToPath env.root pair.dupId)) :=
      fun canonical => canonical_not_temporary canonical temporary
    rw [replaceWithSymlink_eq]
    cases faults pair.dupId with
    | remove => exact relinked
    | symlink => exact relinked.scribble unanchored temporary none
    | rename => exact relinked.scribble unanchored temporary _
    | none =>
        have distinct := uuidToPath_ne_temporaryPath env.root pair.dupId pair.dupId
        have still : Function.update files (temporaryPath (uuidToPath env.root pair.dupId)) none
            (uuidToPath env.root pair.dupId) = some (.file content) := by
          rw [Function.update_of_ne distinct, held]
        exact (relinked.scribble unanchored temporary none).link (duplicate_not_canonical found)
          (uuidToPath_not_temporary pair.dupId) ⟨pair, found, rfl⟩ still
          (relinked.canonical_content honest apart found regular held)
  · exact relinked

theorem RelinkedBy.canonical {pair : DedupPair} (relinked : RelinkedBy env storage files)
    (found : pair ∈ findDedupPairs storage.uploads) :
    files (uuidToPath env.root pair.canonicalId) =
      storage.files (uuidToPath env.root pair.canonicalId) :=
  relinked.anchored _ ⟨pair, found, rfl⟩

theorem relinkedBy_linkDuplicates {canonicalId : Uuid} {dupIds : List Uuid}
    (relinked : RelinkedBy env storage files) (honest : HashesContent env storage)
    (apart : NoCollisions env storage)
    (drawn : ∀ dupId ∈ dupIds, ⟨dupId, canonicalId⟩ ∈ findDedupPairs storage.uploads)
    (regular : isRegularFile storage.files (uuidToPath env.root canonicalId) = true) :
    RelinkedBy env storage (dupIds.foldl (linkDuplicate env faults canonicalId) files) := by
  induction dupIds generalizing files with
  | nil => exact relinked
  | cons dupId rest ih =>
      have first := @relinkedBy_linkDuplicate env storage faults files ⟨dupId, canonicalId⟩ relinked
        honest apart (drawn dupId List.mem_cons_self) regular
      exact ih first fun other member => drawn other (List.mem_cons_of_mem _ member)

theorem RelinkedBy.regular {pair : DedupPair} (relinked : RelinkedBy env storage files)
    (found : pair ∈ findDedupPairs storage.uploads) :
    isRegularFile files (uuidToPath env.root pair.canonicalId) =
      isRegularFile storage.files (uuidToPath env.root pair.canonicalId) := by
  rw [isRegularFile, relinked.canonical found, isRegularFile]

theorem relinkedBy_linkGroup {group : Uuid × List Uuid} (relinked : RelinkedBy env storage files)
    (honest : HashesContent env storage) (apart : NoCollisions env storage)
    (drawn : ∀ dupId ∈ group.2, ⟨dupId, group.1⟩ ∈ findDedupPairs storage.uploads) :
    RelinkedBy env storage (linkGroup env faults files group) := by
  obtain ⟨canonicalId, dupIds⟩ := group
  unfold linkGroup
  split
  · rename_i regular
    cases dupIds with
    | nil => exact relinked
    | cons first rest =>
        rw [relinked.regular (drawn first List.mem_cons_self)] at regular
        exact relinkedBy_linkDuplicates relinked honest apart drawn regular
  · exact relinked

theorem relinkedBy_dedupRun (honest : HashesContent env storage) (apart : NoCollisions env storage)
    (drawn : DrawnFrom storage.uploads groups) (relinked : RelinkedBy env storage files) :
    RelinkedBy env storage (dedupRun env faults groups files) := by
  unfold dedupRun
  induction groups generalizing files with
  | nil => exact relinked
  | cons group rest ih =>
      exact ih (fun other member => drawn other (List.mem_cons_of_mem _ member))
        (relinkedBy_linkGroup relinked honest apart (drawn group List.mem_cons_self))

/-! ## A second run -/

theorem foldl_regular {α : Type} {step : FileSystem → α → FileSystem} {path : Path}
    (never : ∀ files item, isRegularFile (step files item) path = true →
      isRegularFile files path = true) (items : List α)
    (regular : isRegularFile (items.foldl step files) path = true) :
    isRegularFile files path = true := by
  induction items generalizing files with
  | nil => exact regular
  | cons item rest ih => exact never files item (ih regular)

theorem isRegularFile_update {path other : Path} (apart : path ≠ other) (node : Option Node) :
    isRegularFile (Function.update files other node) path = isRegularFile files path := by
  rw [isRegularFile, Function.update_of_ne apart, isRegularFile]

theorem isRegularFile_symlink (path target : Path) :
    isRegularFile (Function.update files path (some (.symlink target))) path = false := by
  rw [isRegularFile, Function.update_self]

/-- No upload becomes a regular file. -/
theorem regular_of_linkDuplicate {canonicalId dupId uuid : Uuid}
    (regular : isRegularFile (linkDuplicate env faults canonicalId files dupId)
      (uuidToPath env.root uuid) = true) :
    isRegularFile files (uuidToPath env.root uuid) = true := by
  have apart := uuidToPath_ne_temporaryPath env.root uuid dupId
  simp only [linkDuplicate] at regular
  split at regular
  · rw [replaceWithSymlink_eq] at regular
    cases fault : faults dupId with
    | remove => simpa only [fault] using regular
    | symlink => simpa only [fault, isRegularFile_update apart] using regular
    | rename => simpa only [fault, isRegularFile_update apart] using regular
    | none =>
        simp only [fault] at regular
        by_cases same : uuidToPath env.root uuid = uuidToPath env.root dupId
        · rw [same, isRegularFile_symlink] at regular
          contradiction
        · rwa [isRegularFile_update same, isRegularFile_update apart] at regular
  · exact regular

theorem regular_of_linkGroup {group : Uuid × List Uuid} {uuid : Uuid}
    (regular : isRegularFile (linkGroup env faults files group) (uuidToPath env.root uuid) = true) :
    isRegularFile files (uuidToPath env.root uuid) = true := by
  unfold linkGroup at regular
  split at regular
  · exact foldl_regular (fun _ _ => regular_of_linkDuplicate) group.2 regular
  · exact regular

theorem linkDuplicate_links {canonicalId dupId : Uuid} (faultless : faults dupId = .none) :
    isRegularFile (linkDuplicate env faults canonicalId files dupId)
      (uuidToPath env.root dupId) = false := by
  simp only [linkDuplicate]
  split
  · rw [replaceWithSymlink_eq, faultless]
    exact isRegularFile_symlink _ _
  · rename_i other
    simpa using other

theorem linkGroup_links {group : Uuid × List Uuid} {dupId : Uuid} (faultless : faults dupId = .none)
    (regular : isRegularFile files (uuidToPath env.root group.1) = true) (member : dupId ∈ group.2) :
    isRegularFile (linkGroup env faults files group) (uuidToPath env.root dupId) = false := by
  obtain ⟨before, after, split⟩ := List.append_of_mem member
  rw [linkGroup, if_pos regular, split, List.foldl_append, List.foldl_cons]
  rw [← Bool.not_eq_true]
  intro still
  have unlinked := foldl_regular (fun _ _ => regular_of_linkDuplicate) after still
  cases (linkDuplicate_links faultless).symm.trans unlinked

/-- Beside a canonical file there is no duplicate left. -/
def AllLinked (env : StoreEnv) (table : Uploads) (files : FileSystem) : Prop :=
  ∀ pair ∈ findDedupPairs table, isRegularFile files (uuidToPath env.root pair.canonicalId) = true →
    isRegularFile files (uuidToPath env.root pair.dupId) = false

theorem allLinked_dedupRun (honest : HashesContent env storage) (apart : NoCollisions env storage)
    (drawn : DrawnFrom storage.uploads groups) (covers : CoversPairs storage.uploads groups)
    (faultless : ∀ id, faults id = .none) :
    AllLinked env storage.uploads (dedupRun env faults groups storage.files) := by
  intro pair found regular
  obtain ⟨group, member, same, listed⟩ := covers pair found
  obtain ⟨before, after, rfl⟩ := List.append_of_mem member
  have whole : RelinkedBy env storage (dedupRun env faults (before ++ group :: after)
      storage.files) := relinkedBy_dedupRun honest apart drawn .refl
  have first : RelinkedBy env storage (dedupRun env faults before storage.files) :=
    relinkedBy_dedupRun honest apart
      (fun other earlier => drawn other (List.mem_append_left _ earlier)) .refl
  rw [whole.regular found, ← first.regular found, ← same] at regular
  rw [dedupRun, List.foldl_append, List.foldl_cons, ← Bool.not_eq_true]
  intro still
  have unlinked := foldl_regular (fun _ _ => regular_of_linkGroup) after still
  cases (linkGroup_links (faultless pair.dupId) regular listed).symm.trans unlinked

theorem foldl_unchanged {α : Type} {step : FileSystem → α → FileSystem} {items : List α}
    (unchanged : ∀ item ∈ items, step files item = files) : items.foldl step files = files := by
  induction items with
  | nil => rfl
  | cons item rest ih =>
      rw [List.foldl_cons, unchanged item List.mem_cons_self]
      exact ih fun other member => unchanged other (List.mem_cons_of_mem _ member)

theorem dedupRun_allLinked (linked : AllLinked env table files) (drawn : DrawnFrom table groups) :
    dedupRun env faults groups files = files := by
  apply foldl_unchanged
  intro group member
  unfold linkGroup
  split
  · rename_i regular
    apply foldl_unchanged
    intro dupId listed
    have irregular := linked _ (drawn group member dupId listed) regular
    simp only [linkDuplicate, irregular, Bool.false_eq_true, if_false]
  · rfl

/-- Whatever groups a run gets to and whatever fails, an active upload that is not
read through a temporary name keeps its content, at one link more, and canonical
files stay.  After a complete run another one changes nothing. -/
theorem dedupRun_preserves (honest : HashesContent env storage) (apart : NoCollisions env storage)
    (lasting : ReadsNoTemporary env storage) (drawn : DrawnFrom storage.uploads groups) :
    (∀ row ∈ storage.uploads.rows, row.active = true → ∀ hops content,
      storage.files.read hops (uuidToPath env.root row.id) = some content →
        (dedupRun env faults groups storage.files).read (hops + 1) (uuidToPath env.root row.id) =
          some content) ∧
    (∀ pair ∈ findDedupPairs storage.uploads,
      dedupRun env faults groups storage.files (uuidToPath env.root pair.canonicalId) =
        storage.files (uuidToPath env.root pair.canonicalId)) ∧
    ((∀ id, faults id = .none) → CoversPairs storage.uploads groups →
      ∀ laterFaults laterGroups, DrawnFrom storage.uploads laterGroups →
        dedupRun env laterFaults laterGroups (dedupRun env faults groups storage.files) =
          dedupRun env faults groups storage.files) := by
  have relinked : RelinkedBy env storage (dedupRun env faults groups storage.files) :=
    relinkedBy_dedupRun honest apart drawn .refl
  refine ⟨fun row member active hops content readable => ?_, fun pair found => ?_, ?_⟩
  · refine Relinked.read relinked (uuidToPath_not_temporary row.id) ?_ readable
    apply lasting row member active hops
    rw [readable]
    rfl
  · exact relinked.canonical found
  · intro faultless covers laterFaults laterGroups laterDrawn
    exact dedupRun_allLinked (allLinked_dedupRun honest apart drawn covers faultless) laterDrawn

/-! ## Three copies of an empty file -/

def thirdUuid : Uuid := ⟨List.replicate 15 0 ++ [3], rfl⟩

def threeCopies : Uploads where
  rows := [emptyUpload thirdUuid 3 "ghi", emptyUpload secondUuid 2 "def",
    emptyUpload firstUuid 1 "abc"]
  distinct := by decide

def storePath (uuid : Uuid) : Path := uuidToPath plainEnv.root uuid

def HoldsEmptyFiles (files : FileSystem) : Prop :=
  ∀ path content, files path = some (.file content) → content = []

theorem HoldsEmptyFiles.read (empty : HoldsEmptyFiles files) {hops : Nat} {path : Path}
    {content : List UInt8} (readable : files.read hops path = some content) : content = [] := by
  induction hops generalizing path with
  | zero =>
      rw [FileSystem.read] at readable
      split at readable
      · contradiction
      · cases readable
        exact empty path content ‹_›
      · contradiction
  | succ hops ih =>
      rw [FileSystem.read] at readable
      split at readable
      · contradiction
      · cases readable
        exact empty path content ‹_›
      · exact ih readable

theorem threeCopies_hash : ∀ row ∈ threeCopies.rows, row.hash = some emptyDigest := by decide

theorem threeCopies_hashesContent (files : FileSystem) :
    HashesContent plainEnv ⟨threeCopies, files⟩ := by
  intro row member _ content hash _ hashed
  rw [threeCopies_hash row member] at hashed
  exact (Option.some.inj hashed).symm

theorem HoldsEmptyFiles.noCollisions (empty : HoldsEmptyFiles files) :
    NoCollisions plainEnv ⟨threeCopies, files⟩ := by
  intro left _ right _ first second leftContent rightContent _
  rw [empty.read leftContent, empty.read rightContent]

def KeepsContent (env : StoreEnv) (before after : Storage) : Prop :=
  ∀ row ∈ before.uploads.rows, row.active = true → ∀ content,
    before.content env row = some content → after.content env row = some content

/-- The oldest copy is a link to a leftover of an earlier run. -/
def leftoverFiles : FileSystem := fun path =>
  if path = storePath firstUuid then some (.symlink (temporaryPath (storePath secondUuid)))
  else if path = storePath secondUuid ∨ path = storePath thirdUuid ∨
      path = temporaryPath (storePath secondUuid) then some (.file [])
  else none

/-- The oldest copy is read through as many links as the system follows. -/
def chainedFiles : FileSystem := fun path =>
  if path = storePath firstUuid then
    some (.symlink ["links".toList, List.replicate (plainEnv.hops - 2) 'x'])
  else if path = storePath secondUuid ∨ path = storePath thirdUuid then some (.file [])
  else
    match path with
    | [directory, _ :: shorter] => some (.symlink [directory, shorter])
    | [_, []] => some (.symlink (storePath secondUuid))
    | _ => none

theorem leftoverFiles_empty : HoldsEmptyFiles leftoverFiles := by
  intro path content held
  unfold leftoverFiles at held
  split at held
  · cases held
  · split at held
    · cases held
      rfl
    · cases held

theorem chainedFiles_empty : HoldsEmptyFiles chainedFiles := by
  intro path content held
  unfold chainedFiles at held
  split at held
  · cases held
  · split at held
    · cases held
      rfl
    · split at held <;> cases held

theorem not_keepsContent {after : Storage}
    (readable : files.read plainEnv.hops (storePath firstUuid) = some [])
    (lost : after.files.read plainEnv.hops (storePath firstUuid) = none) :
    ¬KeepsContent plainEnv ⟨threeCopies, files⟩ after := by
  intro keeps
  have oldest : emptyUpload firstUuid 1 "abc" ∈ threeCopies.rows := by decide
  have kept := keeps _ oldest rfl [] readable
  cases lost.symm.trans kept

/-- A run takes the content of an upload that is read through a temporary name, and
of one that is read through as many links as the system follows. -/
theorem dedup_takes_content :
    (HashesContent plainEnv ⟨threeCopies, leftoverFiles⟩ ∧
      NoCollisions plainEnv ⟨threeCopies, leftoverFiles⟩ ∧
      ¬KeepsContent plainEnv ⟨threeCopies, leftoverFiles⟩
        (dedup plainEnv false (fun _ => .none) ⟨threeCopies, leftoverFiles⟩)) ∧
    HashesContent plainEnv ⟨threeCopies, chainedFiles⟩ ∧
      NoCollisions plainEnv ⟨threeCopies, chainedFiles⟩ ∧
      ¬KeepsContent plainEnv ⟨threeCopies, chainedFiles⟩
        (dedup plainEnv false (fun _ => .none) ⟨threeCopies, chainedFiles⟩) :=
  ⟨⟨threeCopies_hashesContent _, leftoverFiles_empty.noCollisions,
      not_keepsContent (by decide +kernel) (by decide +kernel)⟩,
    threeCopies_hashesContent _, chainedFiles_empty.noCollisions,
    not_keepsContent (by decide +kernel) (by decide +kernel)⟩

def separateFiles : FileSystem := fun path =>
  if path = storePath firstUuid ∨ path = storePath secondUuid ∨ path = storePath thirdUuid then
    some (.file [])
  else none

theorem separateFiles_empty : HoldsEmptyFiles separateFiles := by
  intro path content held
  unfold separateFiles at held
  split at held
  · cases held
    rfl
  · cases held

theorem separateFiles_linkFree : (⟨threeCopies, separateFiles⟩ : Storage).LinkFree := by
  intro path target held
  change separateFiles path = _ at held
  unfold separateFiles at held
  split at held <;> cases held

theorem separateFiles_deduplicated :
    (dedup plainEnv false (fun _ => .none) ⟨threeCopies, separateFiles⟩).files.read 1
        (storePath firstUuid) = some [] ∧
      (dedup plainEnv false (fun _ => .none)
        (dedup plainEnv false (fun _ => .none) ⟨threeCopies, separateFiles⟩)).files =
          (dedup plainEnv false (fun _ => .none) ⟨threeCopies, separateFiles⟩).files := by
  have lasting : ReadsNoTemporary plainEnv ⟨threeCopies, separateFiles⟩ := by
    intro row _ _ hops _ target member
    rw [separateFiles_linkFree.linkTargets] at member
    cases member
  have drawn := groupByCanonical_drawn threeCopies
  have oldest : emptyUpload firstUuid 1 "abc" ∈ threeCopies.rows := by decide
  obtain ⟨kept, -, settled⟩ := @dedupRun_preserves plainEnv ⟨threeCopies, separateFiles⟩
    (fun _ => .none) _ (threeCopies_hashesContent separateFiles) separateFiles_empty.noCollisions
    lasting drawn
  constructor
  · rw [dedup_files]
    exact kept _ oldest rfl 0 [] (by decide +kernel)
  · rw [dedup_files, dedup_uploads, dedup_files]
    exact settled (fun _ => rfl) (groupByCanonical_covers threeCopies) (fun _ => .none) _ drawn

end Filehost.Store
