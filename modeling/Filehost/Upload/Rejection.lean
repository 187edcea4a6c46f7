import Filehost.Upload.Process

namespace Filehost.Upload

open Filehost.Database Filehost.Ip Filehost.Store

/-! # What a rejected file leaves behind -/

def regularFile (files : FileSystem) (path : Path) : Option (List UInt8) :=
  match files path with
  | some (.file content) => some content
  | _ => none

/-- The same rows, and the same regular files with the same content. -/
def LeavesNothing (before after : Storage) : Prop :=
  after.uploads = before.uploads ∧
    ∀ path, regularFile after.files path = regularFile before.files path

/-- The call stops before the save, or the save writes no file, or only what
the path already held. -/
def WritesNothing (env : StoreEnv) (settings : Settings) (request : FileRequest)
    (answers : Answers) (storage : Storage) : Prop :=
  (¬∃ row, ReachesSave env settings request answers storage row) ∨
    ∀ written, answers.save.written request.file.content = some written →
      regularFile storage.files (uuidToPath env.root answers.uuid) = some written

variable {env : StoreEnv} {settings : Settings} {request : FileRequest} {answers : Answers}
  {storage after : Storage} {page : ErrorPage}

theorem regularFile_update (files : FileSystem) (written path : Path) (content : List UInt8) :
    regularFile (Function.update files written (some (.file content))) path =
      if path = written then some content else regularFile files path := by
  unfold regularFile
  by_cases same : path = written
  · rw [if_pos same, same, Function.update_self]
  · rw [if_neg same, Function.update_of_ne same]

theorem regularFile_saveFile_iff (save : SaveOutcome) (content : List UInt8) (dest : Path)
    (files : FileSystem) :
    (∀ path, regularFile (saveFile save content dest files) path = regularFile files path) ↔
      ∀ written, save.written content = some written → regularFile files dest = some written := by
  unfold saveFile
  cases saved : save.written content with
  | none => simp
  | some written =>
      simp only [regularFile_update, Option.some.injEq, forall_eq']
      constructor
      · intro same
        simpa using (same dest).symm
      · intro held path
        by_cases same : path = dest
        · rw [if_pos same, same, held]
        · rw [if_neg same]

/-- A rejected file leaves nothing behind exactly when its call stopped before
it wrote a file. -/
theorem rejected_leaves_nothing_iff
    (rejected : processFile env settings request answers storage = (some (.error page), after)) :
    LeavesNothing storage after ↔ WritesNothing env settings request answers storage := by
  by_cases reaches : ∃ row, ReachesSave env settings request answers storage row
  · obtain ⟨row, reached⟩ := reaches
    rw [processFile_of_reachesSave reached, Prod.mk.injEq, Option.some.injEq] at rejected
    obtain ⟨failed, rfl⟩ := rejected
    have uploads := saveAndInsert_uploads_of_error failed
    have stops : ¬¬∃ row, ReachesSave env settings request answers storage row :=
      not_not_intro ⟨row, reached⟩
    rw [LeavesNothing, WritesNothing, saveAndInsert_files, regularFile_saveFile_iff]
    simp only [uploads, true_and, stops, false_or]
  · have same := processFile_unchanged reaches
    rw [rejected] at same
    obtain rfl : after = storage := same
    exact iff_of_true ⟨rfl, fun _ => rfl⟩ (.inl reaches)

def defaultSettings : Settings where
  dedup := true
  slugs := ⟨false, 7, Char.isAlphanum⟩
  retention := defaultRetention

def emptyFile (name : String) : HashedTempFile := ⟨[], none, none, some name.toList⟩

def cleanAnswers (now : Int) : Answers where
  filenameBanned := some false
  mimes := ⟨[], nofun⟩
  mimeCheckFails _ := false
  hashBanned := some false
  duplicate := some none
  draws := [some "abc".toList]
  fromPath _ := none
  uuid := .nil
  now := now
  createDirFails := false
  save := .persisted
  insertFails := false

theorem emptyFile_expiry :
    calculateExpiry 0 defaultSettings.retention 0 = some 15552000 := by decide +kernel

def uploadBy (userAgent : List Char) : FileRequest where
  file := emptyFile "a.txt"
  uploaderIp := .v4 (.new 203 0 113 7)
  userAgent := some userAgent
  idLen := 3
  keepName := false

theorem uploadBy_reaches (userAgent : List Char) :
    ReachesSave plainEnv defaultSettings (uploadBy userAgent) (cleanAnswers 0) .empty
      (newRow plainEnv (uploadBy userAgent) (cleanAnswers 0) "abc.txt".toList 15552000) where
  passes := rfl
  unique := rfl
  named := rfl
  kept := emptyFile_expiry
  housed := rfl
  described := rfl

def savedFile : FileSystem :=
  Function.update (fun _ => none) (uuidToPath plainEnv.root .nil) (some (.file []))

/-- A user agent longer than its column has the row refused after the file is
saved. -/
theorem uploadBy_rejected {userAgent : List Char} (long : 512 < userAgent.length) :
    processFile plainEnv defaultSettings (uploadBy userAgent) (cleanAnswers 0) .empty =
      (some (.error internalErr), ⟨.empty, savedFile⟩) := by
  have tooLong : fitsVarchar 512 userAgent = false := decide_eq_false (by omega)
  have refused : Uploads.empty.insertUploadRow
      (newRow plainEnv (uploadBy userAgent) (cleanAnswers 0) "abc.txt".toList 15552000) = none := by
    apply dif_neg
    intro fresh
    simp [Upload.fits, newRow, uploadBy, tooLong] at fresh
  rw [processFile_of_reachesSave (uploadBy_reaches userAgent), saveAndInsert_of_refused rfl refused]
  rfl

theorem long_userAgent : 512 < (List.replicate 513 'a').length := by
  rw [List.length_replicate]
  omega

theorem rejected_file_stays :
    ∃ page after,
      processFile plainEnv defaultSettings (uploadBy (List.replicate 513 'a')) (cleanAnswers 0)
        .empty = (some (.error page), after) ∧ ¬LeavesNothing .empty after := by
  refine ⟨_, _, uploadBy_rejected long_userAgent, fun leaves => ?_⟩
  have kept := leaves.2 (uuidToPath plainEnv.root .nil)
  revert kept
  decide

theorem rejected_leaves_nothing_iff_long_userAgent :
    LeavesNothing .empty ⟨.empty, savedFile⟩ ↔
      WritesNothing plainEnv defaultSettings (uploadBy (List.replicate 513 'a')) (cleanAnswers 0)
        .empty :=
  rejected_leaves_nothing_iff (uploadBy_rejected long_userAgent)

end Filehost.Upload
