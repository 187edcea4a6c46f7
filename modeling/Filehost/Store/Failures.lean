import Filehost.Store.Sharing

namespace Filehost.Store

open Filehost.Data Filehost.Database

/-! # Deletions that fail in the middle -/

def stoppedAt (env : StoreEnv) (faults : DeleteFaults) (target : DeleteTarget) (now : Int)
    (storage : Storage) : Option Uuid :=
  ((handledRows env faults target now storage).map Upload.id).find? faults.statement

/-- Every active upload can be read at its path. -/
def InStep (env : StoreEnv) (storage : Storage) : Prop :=
  ∀ row ∈ storage.uploads.rows, row.active = true → (storage.content env row).isSome = true

instance (env : StoreEnv) (storage : Storage) : Decidable (InStep env storage) :=
  inferInstanceAs (Decidable (∀ row ∈ storage.uploads.rows, _ → _))

def StaysInStep (env : StoreEnv) (faults : DeleteFaults) (target : DeleteTarget) (now : Int)
    (storage : Storage) : Prop :=
  ∀ row ∈ selectedRows env target now storage,
    ((deleteMatching env faults target now storage).1.uploads.isActive row.id = true ∧
      ((deleteMatching env faults target now storage).1.content env row).isSome = true) ∨
    ((deleteMatching env faults target now storage).1.uploads.isDeleted row.id = true ∧
      (deleteMatching env faults target now storage).1.files (uuidToPath env.root row.id) = none)

instance (env : StoreEnv) (faults : DeleteFaults) (target : DeleteTarget) (now : Int)
    (storage : Storage) : Decidable (StaysInStep env faults target now storage) :=
  inferInstanceAs (Decidable (∀ row ∈ selectedRows env target now storage, _))

variable {env : StoreEnv} {faults : DeleteFaults} {now : Int} {target : DeleteTarget}
variable {storage : Storage}

theorem find_failed_of_mem_reached {rows : List Upload} {id : Uuid}
    (member : id ∈ (reached faults rows).map Upload.id) (failed : faults.statement id = true) :
    ((reached faults rows).map Upload.id).find? faults.statement = some id := by
  induction rows with
  | nil => cases member
  | cons row rest ih =>
      cases first : faults.statement row.id with
      | true =>
          rw [reached_of_failed faults first] at member ⊢
          obtain rfl : id = row.id := by simpa using member
          simp [first]
      | false =>
          rw [reached_of_done faults first, List.map_cons] at member ⊢
          rw [List.find?_cons, first]
          rcases List.mem_cons.mp member with rfl | later
          · rw [first] at failed
            contradiction
          · exact ih later

theorem stoppedAt_iff {id : Uuid} :
    stoppedAt env faults target now storage = some id ↔
      id ∈ (handledRows env faults target now storage).map Upload.id ∧
        faults.statement id = true := by
  constructor
  · intro stopped
    exact ⟨List.mem_of_find?_eq_some stopped, List.find?_some stopped⟩
  · intro holds
    obtain ⟨member, failed⟩ := holds
    unfold stoppedAt handledRows at *
    split at member
    · cases member
    · rename_i runs
      rw [if_neg runs]
      exact find_failed_of_mem_reached member failed

/-- The upload is read through a link to the path of an upload whose file goes. -/
def ReadsRemoved (env : StoreEnv) (faults : DeleteFaults) (target : DeleteTarget) (now : Int)
    (storage : Storage) (row : Upload) : Prop :=
  ∃ gone ∈ handledRows env faults target now storage, faults.removal gone.id = false ∧
    uuidToPath env.root gone.id ∈
      storage.files.linkTargets env.hops (uuidToPath env.root row.id)

theorem readsRemoved_iff {row : Upload} :
    ReadsRemoved env faults target now storage row ↔
      ∃ link ∈ storage.files.linkTargets env.hops (uuidToPath env.root row.id),
        link ∈ removedPaths env faults (handledRows env faults target now storage) := by
  constructor
  · rintro ⟨gone, handled, removed, linked⟩
    exact ⟨_, linked, mem_removedPaths.mpr ⟨List.mem_map_of_mem handled, removed⟩⟩
  · rintro ⟨link, linked, removed⟩
    obtain ⟨gone, handled, rfl⟩ := List.mem_map.mp removed
    obtain ⟨handled, removed⟩ := List.mem_filter.mp handled
    exact ⟨gone, handled, by simpa using removed, linked⟩

theorem content_deleteMatching {row : Upload} (readable : (storage.content env row).isSome = true) :
    ((deleteMatching env faults target now storage).1.content env row).isSome = true ↔
      ¬(row.id ∈ (handledRows env faults target now storage).map Upload.id ∧
        faults.removal row.id = false) ∧ ¬ReadsRemoved env faults target now storage row := by
  rw [← @mem_removedPaths env faults, readsRemoved_iff, Storage.content, deleteMatching_files, ← not_or]
  by_cases hit : uuidToPath env.root row.id ∈
        removedPaths env faults (handledRows env faults target now storage) ∨
      ∃ link ∈ storage.files.linkTargets env.hops (uuidToPath env.root row.id),
        link ∈ removedPaths env faults (handledRows env faults target now storage)
  · rw [FileSystem.read_without_of_hit hit]
    simp [hit]
  · obtain ⟨kept, apart⟩ := not_or.mp hit
    rw [FileSystem.read_without_of_disjoint kept fun link linked removed =>
      apart ⟨link, linked, removed⟩]
    exact iff_of_true readable hit

theorem entry_deleteMatching {row : Upload} (readable : (storage.content env row).isSome = true) :
    ((deleteMatching env faults target now storage).1.files (uuidToPath env.root row.id)).isSome =
        true ↔
      ¬(row.id ∈ (handledRows env faults target now storage).map Upload.id ∧
        faults.removal row.id = false) := by
  have present : (storage.files (uuidToPath env.root row.id)).isSome = true := by
    cases absent : storage.files (uuidToPath env.root row.id) with
    | some node => rfl
    | none =>
        rw [Storage.content, FileSystem.read_of_absent absent] at readable
        cases readable
  rw [← @mem_removedPaths env faults, deleteMatching_files]
  by_cases removed : uuidToPath env.root row.id ∈
      removedPaths env faults (handledRows env faults target now storage)
  · simp [FileSystem.without_of_mem removed, removed]
  · simpa [FileSystem.without_of_not_mem removed, removed] using present

/-- What a delete operation that may fail at any step makes of a selected
upload: the row is deleted unless the operation did not come to it or stopped
at it; it stays readable unless the operation removed a file it is read from. -/
theorem deleteMatching_outcome (inStep : InStep env storage) {row : Upload}
    (selected : row ∈ selectedRows env target now storage) :
    ((deleteMatching env faults target now storage).1.uploads.isActive row.id = true ∧
      (((deleteMatching env faults target now storage).1.content env row).isSome = true ↔
        ¬(stoppedAt env faults target now storage = some row.id ∧ faults.removal row.id = false) ∧
          ¬ReadsRemoved env faults target now storage row)) ∨
    ((deleteMatching env faults target now storage).1.uploads.isDeleted row.id = true ∧
      (((deleteMatching env faults target now storage).1.files
          (uuidToPath env.root row.id)).isSome = true ↔ faults.removal row.id = true)) := by
  obtain ⟨member, chosen⟩ := List.mem_filter.mp selected
  have kept : row.active = true := (Bool.and_eq_true_iff.mp chosen).2
  have active : storage.uploads.isActive row.id = true :=
    Uploads.isActive_iff.mpr ⟨row, member, rfl, kept⟩
  have readable := inStep row member kept
  rw [content_deleteMatching readable, entry_deleteMatching readable, deleteMatching_uploads,
    Uploads.isActive_setAllDeleted, Uploads.isDeleted_setAllDeleted, mem_markedIds, stoppedAt_iff]
  by_cases handled : row.id ∈ (handledRows env faults target now storage).map Upload.id
  · cases failed : faults.statement row.id with
    | true => exact .inl ⟨⟨fun marked => Bool.noConfusion marked.2, active⟩, by simp [handled]⟩
    | false =>
        refine .inr ⟨.inr ⟨⟨handled, rfl⟩, active⟩, ?_⟩
        cases faults.removal row.id <;> simp [handled]
  · exact .inl ⟨⟨fun marked => handled marked.1, active⟩, by simp [handled]⟩

/-- A selected upload is active and can be read, unless the operation stopped
at it or removed a file that it is read from through links, or it is deleted
and nothing is left at its path, unless the removal failed. -/
def SettledUnlessFailed (env : StoreEnv) (faults : DeleteFaults) (target : DeleteTarget)
    (now : Int) (storage : Storage) (row : Upload) : Prop :=
  ((deleteMatching env faults target now storage).1.uploads.isActive row.id = true ∧
    (((deleteMatching env faults target now storage).1.content env row).isSome = true ∨
      stoppedAt env faults target now storage = some row.id ∨
      ReadsRemoved env faults target now storage row)) ∨
  ((deleteMatching env faults target now storage).1.uploads.isDeleted row.id = true ∧
    (((deleteMatching env faults target now storage).1.files
        (uuidToPath env.root row.id)).isSome = true ↔ faults.removal row.id = true))

theorem selected_settled_unless_failed (inStep : InStep env storage) {row : Upload}
    (selected : row ∈ selectedRows env target now storage) :
    SettledUnlessFailed env faults target now storage row := by
  refine (deleteMatching_outcome inStep selected).imp (fun ⟨active, readable⟩ => ⟨active, ?_⟩) id
  by_cases stopped : stoppedAt env faults target now storage = some row.id
  · exact .inr (.inl stopped)
  · by_cases shared : ReadsRemoved env faults target now storage row
    · exact .inr (.inr shared)
    · exact .inl (readable.mpr ⟨fun halted => stopped halted.1, shared⟩)

def removalFailsAt (id : Uuid) : DeleteFaults := ⟨false, fun other => other = id, fun _ => false⟩

def statementFailsAt (id : Uuid) : DeleteFaults := ⟨false, fun _ => false, fun other => other = id⟩

/-- A failed removal leaves a deleted upload its file; a failed statement takes
the file of an active one, and here the content of the one linked to it. -/
theorem failures_leave_step :
    InStep plainEnv ((storeSystem plainEnv).after .empty linkedEvents) ∧
      ¬StaysInStep plainEnv (removalFailsAt firstUuid) (.byId firstUuid) 3
        ((storeSystem plainEnv).after .empty linkedEvents) ∧
      ¬StaysInStep plainEnv (statementFailsAt secondUuid) .expired 15552000
        ((storeSystem plainEnv).after .empty linkedEvents) := by
  decide

theorem thirdUuid_size : (List.replicate 15 (0 : UInt8) ++ [3]).length = 16 := rfl

def thirdUpload : Upload := emptyUpload ⟨List.replicate 15 0 ++ [3], thirdUuid_size⟩ 3 "ghi"

/-- The newest upload owns the file, the two older ones link to it. -/
def threeLinked : Storage :=
  (storeSystem plainEnv).after .empty
    [.dedup false fun _ => .none, .upload thirdUpload [],
      .upload (emptyUpload secondUuid 2 "def") [], .upload (emptyUpload firstUuid 1 "abc") []]

/-- The first removal fails, the second row's statement stops the loop, the
third row is not reached. -/
def failsInTheMiddle : DeleteFaults :=
  ⟨false, fun id => id = thirdUpload.id, fun id => id = secondUuid⟩

theorem selected_settled_unless_failed_in_the_middle :
    stoppedAt plainEnv failsInTheMiddle .expired 15552000 threeLinked = some secondUuid ∧
      SettledUnlessFailed plainEnv failsInTheMiddle .expired 15552000 threeLinked thirdUpload ∧
      SettledUnlessFailed plainEnv failsInTheMiddle .expired 15552000 threeLinked
        (emptyUpload secondUuid 2 "def") ∧
      SettledUnlessFailed plainEnv failsInTheMiddle .expired 15552000 threeLinked
        (emptyUpload firstUuid 1 "abc") :=
  have inStep : InStep plainEnv threeLinked := by decide
  ⟨by decide, selected_settled_unless_failed inStep (by decide),
    selected_settled_unless_failed inStep (by decide),
    selected_settled_unless_failed inStep (by decide)⟩

end Filehost.Store
