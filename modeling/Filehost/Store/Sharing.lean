import Filehost.Data.Transition
import Filehost.Store.Dedup

namespace Filehost.Store

open Filehost.Data Filehost.Database

/-! # Uploads that share a file

After a run of the dedup command several active rows are read through one
file.  Deleting the row that owns it takes the content of the others. -/

inductive StoreEvent where
  | upload (row : Upload) (content : List UInt8)
  | dedup (dryRun : Bool) (faults : Uuid → LinkFault)
  | delete (target : DeleteTarget) (now : Int) (faults : DeleteFaults)

/-- The file is saved first; a refused row leaves it where it is. -/
def storeUpload (env : StoreEnv) (row : Upload) (content : List UInt8) (storage : Storage) :
    Storage where
  uploads := (storage.uploads.insertUploadRow row).getD storage.uploads
  files := Function.update storage.files (uuidToPath env.root row.id) (some (.file content))

def storeSystem (env : StoreEnv) : System Storage StoreEvent where
  enabled _ event :=
    match event with
    | .upload row content => row.active = true ∧ row.hash = some (env.blake3 content)
    | .dedup _ _ | .delete _ _ _ => True
  next storage event :=
    match event with
    | .upload row content => storeUpload env row content storage
    | .dedup dryRun faults => dedup env dryRun faults storage
    | .delete target now faults => (deleteMatching env faults target now storage).1

def Storage.content (storage : Storage) (env : StoreEnv) (row : Upload) : Option (List UInt8) :=
  storage.files.read env.hops (uuidToPath env.root row.id)

def keptRows (env : StoreEnv) (target : DeleteTarget) (now : Int) (storage : Storage) :
    List Upload :=
  storage.uploads.rows.filter fun row => row.active && !target.whereClause env now row

def LeavesOthers (env : StoreEnv) (storage : Storage) : StoreEvent → Prop
  | .delete target now faults =>
      ∀ row ∈ keptRows env target now storage,
        (deleteMatching env faults target now storage).1.content env row = storage.content env row
  | _ => True

/-- No upload that is kept, and readable, is read through a link to the path of
an upload whose file goes. -/
def SharesNoFile (env : StoreEnv) (storage : Storage) : StoreEvent → Prop
  | .delete target now faults =>
      ∀ row ∈ keptRows env target now storage, storage.content env row ≠ none →
        ∀ gone ∈ handledRows env faults target now storage, faults.removal gone.id = false →
          uuidToPath env.root gone.id ∉
            storage.files.linkTargets env.hops (uuidToPath env.root row.id)
  | _ => True

variable {env : StoreEnv} {storage : Storage} {target : DeleteTarget} {now : Int}
  {faults : DeleteFaults}

theorem kept_path_not_removed {row : Upload} (kept : row ∈ keptRows env target now storage) :
    uuidToPath env.root row.id ∉
      removedPaths env faults (handledRows env faults target now storage) := by
  intro removed
  obtain ⟨gone, handled, same⟩ := List.mem_map.mp removed
  have selected := handledRows_subset env faults now target storage (List.mem_filter.mp handled).1
  obtain ⟨goneMember, chosen⟩ := List.mem_filter.mp selected
  obtain ⟨rowMember, unchosen⟩ := List.mem_filter.mp kept
  have identical : gone = row :=
    Uploads.eq_of_same_id goneMember rowMember (uuidToPath_inj.mp same)
  simp [identical] at chosen unchosen
  simp [chosen.1] at unchosen

theorem leavesOthers_iff (event : StoreEvent) :
    LeavesOthers env storage event ↔ SharesNoFile env storage event := by
  cases event with
  | upload row content => exact Iff.rfl
  | dedup dryRun faults => exact Iff.rfl
  | delete target now faults =>
      apply forall₂_congr
      intro row kept
      unfold Storage.content
      rw [deleteMatching_files, FileSystem.read_without_eq_iff (kept_path_not_removed kept)]
      have targets : (∀ target' ∈ storage.files.linkTargets env.hops (uuidToPath env.root row.id),
            target' ∉ removedPaths env faults (handledRows env faults target now storage)) ↔
          ∀ gone ∈ handledRows env faults target now storage, faults.removal gone.id = false →
            uuidToPath env.root gone.id ∉
              storage.files.linkTargets env.hops (uuidToPath env.root row.id) := by
        constructor
        · intro apart gone handled removed member
          exact apart _ member (List.mem_map_of_mem (List.mem_filter.mpr ⟨handled, by simp [removed]⟩))
        · intro apart other member removed
          obtain ⟨gone, handled, rfl⟩ := List.mem_map.mp removed
          obtain ⟨handled, removed⟩ := List.mem_filter.mp handled
          exact apart gone handled (by simpa using removed) member
      rw [targets]
      exact or_iff_not_imp_left

/-- The runs in which no deletion takes another upload's content are those in
which no deletion removes a file that a kept upload is read through. -/
theorem run_leavesOthers_iff {events : List StoreEvent} {state : Storage} :
    ((storeSystem env).restrict (LeavesOthers env)).Run .empty events state ↔
      ((storeSystem env).restrict (SharesNoFile env)).Run .empty events state :=
  System.run_restrict_congr fun _ event => leavesOthers_iff event

def Storage.LinkFree (storage : Storage) : Prop :=
  ∀ path target, storage.files path ≠ some (.symlink target)

def LinksNothing (_ : Storage) (event : StoreEvent) : Prop :=
  ∀ faults, event ≠ .dedup false faults

theorem Storage.LinkFree.next {event : StoreEvent} (linkFree : storage.LinkFree)
    (linksNothing : LinksNothing storage event) :
    ((storeSystem env).next storage event).LinkFree := by
  intro path target
  cases event with
  | upload row content =>
      change Function.update storage.files _ _ path ≠ _
      by_cases same : path = uuidToPath env.root row.id
      · subst same
        simp
      · rw [Function.update_of_ne same]
        exact linkFree path target
  | dedup dryRun faults =>
      cases dryRun with
      | true => exact linkFree path target
      | false => exact absurd rfl (linksNothing faults)
  | delete deleted now faults =>
      change (deleteMatching env faults deleted now storage).1.files path ≠ _
      rw [deleteMatching_files]
      unfold FileSystem.without
      split
      · nofun
      · exact linkFree path target

theorem Storage.LinkFree.linkTargets (linkFree : storage.LinkFree) (hops : Nat) (path : Path) :
    storage.files.linkTargets hops path = [] := by
  cases hops <;>
    rw [FileSystem.linkTargets] <;>
    split <;> first | rfl | exact absurd ‹_› (linkFree path _)

/-- Without a run of the dedup command no deletion takes another upload's
content. -/
theorem run_leavesOthers_of_linksNothing {events : List StoreEvent} {state : Storage}
    (run : ((storeSystem env).restrict LinksNothing).Run .empty events state) :
    ((storeSystem env).restrict (LeavesOthers env)).Run .empty events state := by
  have initially : Storage.empty.LinkFree := nofun
  refine (run.restrict_of_invariant initially (fun _ _ linkFree enabled => linkFree.next enabled.2)
    fun storage event linkFree _ => (leavesOthers_iff event).mpr ?_).1
  cases event with
  | upload row content => trivial
  | dedup dryRun faults => trivial
  | delete target now faults =>
      intro row _ _ gone _ _
      rw [linkFree.linkTargets]
      exact List.not_mem_nil

def firstUuid : Uuid := ⟨List.replicate 15 0 ++ [1], rfl⟩

def secondUuid : Uuid := ⟨List.replicate 15 0 ++ [2], rfl⟩

def emptyUpload (id : Uuid) (uploadTimestamp : Int) (slug : String) : Upload :=
  ⟨id, uploadTimestamp, 15552000, none, "a.txt".toList, slug.toList, 0, some emptyDigest,
    List.replicate 15 0 ++ [1], some "text/plain".toList, none⟩

def linkedEvents : List StoreEvent :=
  [.dedup false fun _ => .none, .upload (emptyUpload secondUuid 2 "def") [],
    .upload (emptyUpload firstUuid 1 "abc") []]

/-- Two uploads of one content, a run of the command, and the deletion of the
newer upload: the older one is active and cannot be read any more. -/
theorem deleting_canonical_takes_duplicate :
    (storeSystem plainEnv).Run .empty linkedEvents ((storeSystem plainEnv).after .empty linkedEvents) ∧
      ¬LeavesOthers plainEnv ((storeSystem plainEnv).after .empty linkedEvents)
        (.delete (.byId secondUuid) 3 .none) := by
  refine ⟨.of_admits ⟨⟨⟨trivial, rfl, rfl⟩, rfl, rfl⟩, trivial⟩, fun leaves => ?_⟩
  have kept := leaves (emptyUpload firstUuid 1 "abc")
  revert kept
  decide

end Filehost.Store
