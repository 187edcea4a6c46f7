import Filehost.Data.Transition
import Filehost.Upload.Rejection

namespace Filehost.Upload

open Filehost.Data Filehost.Database Filehost.Store

/-! # The advertised minimum

A request is one step, at the second in which it answers.  A sweep deletes what
has expired by then, and may fail at any step. -/

structure RetentionState where
  storage : Storage
  clock : Int

inductive RetentionEvent where
  | upload (request : FileRequest) (answers : Answers)
  | sweep (faults : DeleteFaults)
  | elapse (seconds : Nat)

def RetentionState.initial (start : Nat) : RetentionState := ⟨.empty, start⟩

/-- The lookup of a duplicate answers from the table. -/
def LookupAgrees (env : StoreEnv) (table : Uploads) (request : FileRequest) (answers : Answers) :
    Prop :=
  match answers.duplicate with
  | none => True
  | some none => ∀ row ∈ table.rows, row.active = true →
      row.hash ≠ some (env.blake3 request.file.content)
  | some (some row) => table.NewestWithHash (env.blake3 request.file.content) row

instance (env : StoreEnv) (table : Uploads) (request : FileRequest) (answers : Answers) :
    Decidable (LookupAgrees env table request answers) := by
  unfold LookupAgrees
  split <;> infer_instance

def retentionSystem (env : StoreEnv) (settings : Settings) :
    System RetentionState RetentionEvent where
  enabled state event :=
    match event with
    | .upload request answers =>
        answers.now = state.clock ∧ LookupAgrees env state.storage.uploads request answers
    | .sweep _ | .elapse _ => True
  next state event :=
    match event with
    | .upload request answers =>
        { state with storage := (processFile env settings request answers state.storage).2 }
    | .sweep faults =>
        { state with
          storage := (deleteMatching env faults .expired state.clock state.storage).1 }
    | .elapse seconds => { state with clock := state.clock + seconds }

/-- Active rows have a slug of their own and, until they expire, a file. -/
structure Served (env : StoreEnv) (storage : Storage) (now : Int) : Prop where
  housed : ∀ row ∈ storage.uploads.rows, row.active = true → now < row.expiryTimestamp →
    ∃ content, storage.files (uuidToPath env.root row.id) = some (.file content)
  named : storage.uploads.SlugsDistinct fun left right => env.collation.equal left right = true

variable {env : StoreEnv} {settings : Settings} {storage : Storage} {now : Int}

theorem saveFile_housed {files : FileSystem} {path : Path} {content : List UInt8}
    (housed : ∃ held, files path = some (.file held)) (save : SaveOutcome) (dest : Path) :
    ∃ held, saveFile save content dest files path = some (.file held) := by
  unfold saveFile
  cases save.written content with
  | none => exact housed
  | some written =>
      by_cases same : path = dest
      · subst same
        exact ⟨written, Function.update_self ..⟩
      · obtain ⟨held, found⟩ := housed
        exact ⟨held, (Function.update_of_ne same ..).trans found⟩

theorem saveFile_dest {files : FileSystem} {dest : Path} {content : List UInt8} {save : SaveOutcome}
    (succeeds : save.succeeds = true) :
    saveFile save content dest files dest = some (.file content) := by
  cases save with
  | persisted => exact Function.update_self ..
  | copied => exact Function.update_self ..
  | failed left => contradiction

theorem allocateUniqueSlug_free {collation : Collation} {slugs : SlugSettings} {table : Uploads}
    {request : SlugRequest} {idLen attempt : Nat} {draws : List (Option (List Char))}
    {slug : List Char}
    (allocated : allocateUniqueSlug collation slugs table request idLen attempt draws =
      some (.ok slug)) :
    table.isSlugTaken collation slug = false := by
  induction draws generalizing idLen attempt with
  | nil => contradiction
  | cons draw draws ih =>
      cases draw with
      | none => cases allocated
      | some draw =>
          simp only [allocateUniqueSlug] at allocated
          split at allocated
          · exact ih allocated
          · rename_i free
            cases allocated
            simpa using free

theorem Served.upload (served : Served env storage now) (request : FileRequest)
    (answers : Answers) :
    Served env (processFile env settings request answers storage).2 now := by
  by_cases reaches : ∃ row, ReachesSave env settings request answers storage row
  · obtain ⟨row, reached⟩ := reaches
    rw [processFile_of_reachesSave reached]
    have files := saveAndInsert_files env request answers storage row
    have keeps : ∀ other ∈ storage.uploads.rows, other.active = true →
        now < other.expiryTimestamp → ∃ content,
          (saveAndInsert env request answers row storage).2.files (uuidToPath env.root other.id) =
            some (.file content) := by
      intro other member active later
      rw [files]
      exact saveFile_housed (served.housed other member active later) _ _
    rcases saveAndInsert_uploads env request answers storage row with same | ⟨succeeds, inserted⟩
    · exact ⟨same ▸ keeps, same ▸ served.named⟩
    · have free := allocateUniqueSlug_free reached.named
      refine ⟨?_, served.named.of_insert (fun _ _ => Collation.equal_symm)
        (fun _ => Uploads.apart_of_not_taken free) inserted⟩
      rw [(Uploads.insertUploadRow_rows inserted).1]
      intro other member active later
      rcases List.mem_cons.mp member with rfl | earlier
      · have id : other.id = answers.uuid := congrArg Upload.id reached.described
        rw [files, id]
        exact ⟨_, saveFile_dest succeeds⟩
      · exact keeps other earlier active later
  · rw [processFile_unchanged reaches]
    exact served

theorem not_handled_of_later {faults : DeleteFaults} {row : Upload}
    (member : row ∈ storage.uploads.rows) (later : now < row.expiryTimestamp) :
    row.id ∉ (handledRows env faults .expired now storage).map Upload.id := by
  intro handled
  obtain ⟨other, otherHandled, same⟩ := List.mem_map.mp handled
  obtain ⟨otherMember, chosen⟩ :=
    List.mem_filter.mp (handledRows_subset env faults now .expired storage otherHandled)
  obtain rfl := Uploads.eq_of_same_id otherMember member same
  simp only [DeleteTarget.whereClause, Bool.and_eq_true, decide_eq_true_eq] at chosen
  omega

theorem Served.sweep (served : Served env storage now) (faults : DeleteFaults) :
    Served env (deleteMatching env faults .expired now storage).1 now := by
  have fades := deleteMatching_fades env faults now .expired storage
  refine ⟨fun row member active later => ?_, served.named.of_fades fades⟩
  have earlier := fades.mem member active
  rw [deleteMatching_files, FileSystem.without_of_not_mem]
  · exact served.housed row earlier active later
  · exact fun removed => not_handled_of_later earlier later (mem_removedPaths.mp removed).1

theorem Served.elapse (served : Served env storage now) (seconds : Nat) :
    Served env storage (now + seconds) :=
  ⟨fun row member active later => served.housed row member active (by omega), served.named⟩

variable {state final : RetentionState} {event : RetentionEvent} {events : List RetentionEvent}
variable {row : Upload} {deadline : Int} {start : Nat}

theorem clock_le_next : state.clock ≤ ((retentionSystem env settings).next state event).clock := by
  cases event with
  | upload request answers => exact Int.le_refl _
  | sweep faults => exact Int.le_refl _
  | elapse seconds => exact Int.le_add_of_nonneg_right (Int.natCast_nonneg seconds)

theorem findDuplicate_found {answers : Answers} {existing : Upload}
    (found : findDuplicate settings answers = .ok (some existing)) :
    answers.duplicate = some (some existing) := by
  unfold findDuplicate at found
  split at found
  · cases found
  · split at found
    · contradiction
    · rename_i duplicate answered
      cases found
      exact answered

end Filehost.Upload
