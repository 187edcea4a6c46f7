import Filehost.Store.Maintenance

namespace Filehost.Store

open Filehost.Data Filehost.Database

/-! # Hashing again, then linking

Together the two commands leave one regular file for each content. -/

variable {env : StoreEnv} {storage : Storage} {table : Uploads}

theorem newest_isSome {rows : List Upload} {best : Option Upload}
    (some : best.isSome = true ∨ rows ≠ []) :
    (rows.foldl (fun best row => if best.all (newerUpload row) then Option.some row else best)
      best).isSome = true := by
  induction rows generalizing best with
  | nil => exact some.resolve_right fun nonempty => nonempty rfl
  | cons first rest ih =>
      refine ih (.inl ?_)
      cases best with
      | none => rfl
      | some row =>
          dsimp only
          split <;> rfl

theorem exists_canonicalOf {row : Upload} {hash : List UInt8} (member : row ∈ table.rows)
    (active : row.active = true) (hashed : row.hash = some hash) :
    ∃ canonical, canonicalOf table hash = some canonical := by
  apply Option.isSome_iff_exists.mp
  refine newest_isSome (.inr (List.ne_nil_of_mem (a := row) ?_))
  exact List.mem_filter.mpr ⟨member, by simp [active, hashed]⟩

theorem pair_of_canonicalOf {row canonical : Upload} {hash : List UInt8} (member : row ∈ table.rows)
    (active : row.active = true) (hashed : row.hash = some hash)
    (newest : canonicalOf table hash = some canonical) (apart : row.id ≠ canonical.id) :
    ⟨row.id, canonical.id⟩ ∈ findDedupPairs table :=
  List.mem_filterMap.mpr ⟨row, member, by simp [hashed, newest, active, apart]⟩

section Compaction

variable {events : List MaintenanceEvent} {rehashFaults : RehashFaults} {ids : List Uuid}
  {linkFaults : Uuid → LinkFault} {groups : List (Uuid × List Uuid)}

/-- After a run without failures a readable upload has the hash of its content. -/
theorem Honest.hash_of_rehashed (honest : Honest env storage) (faultless : rehashFaults.Faultless)
    (listed : ids.Perm storage.uploads.uploadsMissingHash) {row : Upload}
    (member : row ∈ (Store.rehashed env rehashFaults ids storage).uploads.rows)
    (active : row.active = true) {content : List UInt8}
    (held : storage.files (uuidToPath env.root row.id) = some (.file content)) :
    row.hash = some (env.blake3 content) := by
  cases hashed : row.hash with
  | none =>
      have missing := (Uploads.mem_uploadsMissingHash member).mpr ⟨hashed, active⟩
      have unreadable := unreadable_of_rehashed faultless listed missing
      rw [FileSystem.read_file held] at unreadable
      cases unreadable
  | some hash =>
      have after := honest.rehashed rehashFaults ids
      rw [after.hashes row member hash hashed content]
      rw [rehashed_files]
      exact FileSystem.holds_of_file held

/-- Two active uploads keep regular files of one content only if the newest upload
with that content has no regular file, so that the command skips the group. -/
theorem rehash_dedup_shares (run : (maintenanceSystem env).Run .empty events storage)
    (faultless : rehashFaults.Faultless) (listed : ids.Perm storage.uploads.uploadsMissingHash)
    (apart : NoCollisions env (rehashed env rehashFaults ids storage))
    (drawn : DrawnFrom (rehashed env rehashFaults ids storage).uploads groups)
    (covers : CoversPairs (rehashed env rehashFaults ids storage).uploads groups)
    (linkFaultless : ∀ id, linkFaults id = .none) {left right : Upload}
    (leftMember : left ∈ (rehashed env rehashFaults ids storage).uploads.rows)
    (rightMember : right ∈ (rehashed env rehashFaults ids storage).uploads.rows)
    (leftActive : left.active = true) (rightActive : right.active = true)
    (different : left.id ≠ right.id) {content : List UInt8}
    (leftFile : dedupRun env linkFaults groups storage.files (uuidToPath env.root left.id) =
      some (.file content))
    (rightFile : dedupRun env linkFaults groups storage.files (uuidToPath env.root right.id) =
      some (.file content)) :
    ∃ canonical, canonicalOf (rehashed env rehashFaults ids storage).uploads (env.blake3 content) =
        some canonical ∧
      isRegularFile (dedupRun env linkFaults groups storage.files)
        (uuidToPath env.root canonical.id) = false := by
  have honest := (run_honest run).rehashed rehashFaults ids
  have honestContent : HashesContent env (rehashed env rehashFaults ids storage) :=
    fun row member _ held hash readable stored =>
      (honest.hashes row member hash stored held ⟨_, readable⟩).symm
  have relinked : Relinking (SameHash env) env (rehashed env rehashFaults ids storage).uploads
      storage.files (dedupRun env linkFaults groups storage.files) := by
    have alike := honest.pairsAlike
    have linked := honest.linked
    unfold LinksToUploads at linked
    rw [rehashed_files] at alike linked
    exact .dedupRun (sameHash_equivalence env) alike drawn ⟨linked, .refl⟩
  have hashOf {row : Upload} (member : row ∈ (rehashed env rehashFaults ids storage).uploads.rows)
      (active : row.active = true)
      (file : dedupRun env linkFaults groups storage.files (uuidToPath env.root row.id) =
        some (.file content)) : row.hash = some (env.blake3 content) := by
    have regular := foldl_regular (fun _ _ => regular_of_linkGroup) groups
      ((isRegularFile_iff _).mpr ⟨content, file⟩)
    obtain ⟨own, held⟩ := (isRegularFile_iff _).mp regular
    obtain ⟨earlier, earlierHeld, same⟩ :=
      relinked.held row.id content (FileSystem.holds_of_file file)
    rw [(run_honest run).hash_of_rehashed faultless listed member active held]
    rw [(FileSystem.holds_of_file held).unique earlierHeld, same]
  have leftHash := hashOf leftMember leftActive leftFile
  have rightHash := hashOf rightMember rightActive rightFile
  obtain ⟨canonical, newest⟩ := exists_canonicalOf leftMember leftActive leftHash
  refine ⟨canonical, newest, Bool.eq_false_iff.mpr fun regular => ?_⟩
  have allLinked : AllLinked env (rehashed env rehashFaults ids storage).uploads
      (dedupRun env linkFaults groups (rehashed env rehashFaults ids storage).files) :=
    allLinked_dedupRun honestContent apart drawn covers linkFaultless
  rw [rehashed_files] at allLinked
  have irregular {row : Upload} (member : row ∈ (rehashed env rehashFaults ids storage).uploads.rows)
      (active : row.active = true) (hashed : row.hash = some (env.blake3 content))
      (file : dedupRun env linkFaults groups storage.files (uuidToPath env.root row.id) =
        some (.file content)) : row.id = canonical.id := by
    by_contra other
    have linked := allLinked _ (pair_of_canonicalOf member active hashed newest other) regular
    rw [(isRegularFile_iff _).mpr ⟨content, file⟩] at linked
    cases linked
  exact different ((irregular leftMember leftActive leftHash leftFile).trans
    (irregular rightMember rightActive rightHash rightFile).symm)

end Compaction

/-! ## A newest copy without its file -/

def lostEvents : List MaintenanceEvent :=
  [.delete (.byId thirdUuid) 4 ⟨false, fun _ => false, fun _ => true⟩,
    .upload (emptyUpload thirdUuid 3 "ghi") [], .upload (emptyUpload secondUuid 2 "def") [],
    .upload (emptyUpload firstUuid 1 "abc") []]

def lostState : Storage := (maintenanceSystem plainEnv).after .empty lostEvents

theorem HoldsEmptyFiles.storeUpload (empty : HoldsEmptyFiles storage.files) (row : Upload) :
    HoldsEmptyFiles (storeUpload env row [] storage).files := by
  intro path content held
  change Function.update storage.files _ _ path = _ at held
  by_cases same : path = uuidToPath env.root row.id
  · rw [same, Function.update_self] at held
    cases held
    rfl
  · rw [Function.update_of_ne same] at held
    exact empty path content held

theorem HoldsEmptyFiles.deleteMatching (empty : HoldsEmptyFiles storage.files) (target : DeleteTarget)
    (now : Int) (faults : DeleteFaults) :
    HoldsEmptyFiles (deleteMatching env faults target now storage).1.files := by
  intro path content held
  rw [deleteMatching_files, FileSystem.without] at held
  split at held
  · cases held
  · exact empty path content held

theorem lostState_empty : HoldsEmptyFiles lostState.files := by
  have none : HoldsEmptyFiles Storage.empty.files := fun _ _ held => nomatch held
  exact (((none.storeUpload _).storeUpload _).storeUpload _).deleteMatching _ _ _

/-- The two older copies stay apart. -/
theorem lost_not_shared :
    ∃ canonical, canonicalOf (rehashed plainEnv noRehashFaults [] lostState).uploads emptyDigest =
        some canonical ∧
      isRegularFile (dedupRun plainEnv (fun _ => .none)
        (groupByCanonical (findDedupPairs (rehashed plainEnv noRehashFaults [] lostState).uploads))
        lostState.files) (uuidToPath plainEnv.root canonical.id) = false := by
  have run : (maintenanceSystem plainEnv).Run .empty lostEvents lostState :=
    .of_admits ⟨⟨⟨⟨trivial, rfl, rfl, by decide⟩, rfl, rfl, by decide⟩, rfl, rfl, by decide⟩, trivial⟩
  have apart : NoCollisions plainEnv (rehashed plainEnv noRehashFaults [] lostState) :=
    fun _ _ _ _ _ _ left right _ =>
      (lostState_empty.read left).trans (lostState_empty.read right).symm
  exact @rehash_dedup_shares plainEnv lostState lostEvents noRehashFaults [] (fun _ => .none) _ run
    (fun _ => ⟨rfl, rfl⟩) (.of_eq (by decide)) apart (groupByCanonical_drawn _)
    (groupByCanonical_covers _) (fun _ => rfl) (emptyUpload firstUuid 1 "abc")
    (emptyUpload secondUuid 2 "def") (by decide) (by decide) rfl rfl (by decide) []
    (by decide +kernel) (by decide +kernel)

end Filehost.Store
