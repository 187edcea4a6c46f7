import Filehost.Data.Checks
import Filehost.Store.Delete
import Filehost.Upload.ContentType
import Filehost.Upload.Expiry
import Filehost.Upload.Slug

namespace Filehost.Upload

open Filehost.Database Filehost.Ip Filehost.Store

/-! # One file of an upload request -/

structure Settings where
  dedup : Bool
  slugs : SlugSettings
  retention : RetentionSettings

structure FileRequest where
  file : HashedTempFile
  uploaderIp : IpAddr
  userAgent : Option (List Char)
  idLen : Nat
  keepName : Bool

/-- How saving the file goes: renamed, copied, or neither, with what a failed
copy left at the destination. -/
inductive SaveOutcome where
  | persisted
  | copied
  | failed (left : Option (List UInt8))
deriving DecidableEq

/-- The table of banned types.  Its entries are lowered when they are inserted. -/
structure BannedMimes where
  entries : List (List Char)
  lowered : ∀ entry ∈ entries, entry.map Char.toLower = entry

/-- What the calls `process_file` makes answer.  `none` is an error of the call
where a check or a lookup has one. -/
structure Answers where
  filenameBanned : Option Bool
  mimes : BannedMimes
  mimeCheckFails : List Char → Bool
  hashBanned : Option Bool
  duplicate : Option (Option Upload)
  draws : List (Option (List Char))
  fromPath : List Char → Option Mime
  uuid : Uuid
  now : Int
  createDirFails : Bool
  save : SaveOutcome
  insertFails : Bool

structure ErrorPage where
  status : Nat
  message : String
deriving DecidableEq

def internalErr : ErrorPage := ⟨500, "Something went wrong."⟩

def checkNotBanned (check : Option Bool) (forbiddenMessage : String) : Except ErrorPage Unit :=
  match check with
  | some true => .error ⟨403, forbiddenMessage⟩
  | some false => .ok ()
  | none => .error internalErr

def originalName (file : HashedTempFile) : List Char := file.fileName.getD "unknown".toList

def isMimeBanned (answers : Answers) (mime : List Char) : Option Bool :=
  if answers.mimeCheckFails mime then none
  else some (answers.mimes.entries.contains (mime.map Char.toLower))

/-- The declared and the sniffed type are checked as they are written. -/
def checkMimes (answers : Answers) (file : HashedTempFile) : Except ErrorPage Unit :=
  ([file.contentType, file.detectedContentType].filterMap id).forM fun mime =>
    checkNotBanned (isMimeBanned answers mime.text) "Your upload was rejected."

def checkBans (answers : Answers) (file : HashedTempFile) : Except ErrorPage Unit := do
  checkNotBanned answers.filenameBanned "File type not allowed."
  checkMimes answers file
  checkNotBanned answers.hashBanned "Your upload was rejected."

def findDuplicate (settings : Settings) (answers : Answers) : Except ErrorPage (Option Upload) :=
  if !settings.dedup then .ok none
  else
    match answers.duplicate with
    | none => .error internalErr
    | some found => .ok found

def contentTypeForDb (answers : Answers) (file : HashedTempFile) : List Char :=
  reconcileContentTypeForDb file.detectedContentType
    (determineContentType answers.fromPath file (originalName file)).1

def slugRequest (answers : Answers) (request : FileRequest) : SlugRequest where
  originalName := originalName request.file
  ctSubtype :=
    (determineContentType answers.fromPath request.file (originalName request.file)).2
  keepName := request.keepName

def newRow (env : StoreEnv) (request : FileRequest) (answers : Answers) (slug : List Char)
    (expiry : Int) : Upload where
  id := answers.uuid
  uploadTimestamp := answers.now
  expiryTimestamp := expiry
  deletedTimestamp := none
  originalName := originalName request.file
  slug := slug
  fileSize := request.file.content.length
  hash := some (env.blake3 request.file.content)
  uploaderIp := toDbBytes request.uploaderIp
  contentType := some (contentTypeForDb answers request.file)
  userAgent := request.userAgent

def SaveOutcome.succeeds : SaveOutcome → Bool
  | .persisted | .copied => true
  | .failed _ => false

def SaveOutcome.written (content : List UInt8) : SaveOutcome → Option (List UInt8)
  | .persisted | .copied => some content
  | .failed left => left

def saveFile (save : SaveOutcome) (content : List UInt8) (dest : Path) (files : FileSystem) :
    FileSystem :=
  match save.written content with
  | none => files
  | some written => Function.update files dest (some (.file written))

/-- From the save on a failure leaves what was written. -/
def saveAndInsert (env : StoreEnv) (request : FileRequest) (answers : Answers) (row : Upload)
    (storage : Storage) : Except ErrorPage (List Char) × Storage :=
  let savePath := uuidToPath env.root answers.uuid
  let files := saveFile answers.save request.file.content savePath storage.files
  if !answers.save.succeeds then (.error internalErr, { storage with files })
  else
    match if answers.insertFails then none else storage.uploads.insertUploadRow row with
    | none => (.error internalErr, { storage with files })
    | some uploads => (.ok row.slug, { uploads, files })

/-- `process_file`, answering the slug of the link.  It does not answer while
slugs are still being drawn, nor when the expiry leaves the calendar. -/
def processFile (env : StoreEnv) (settings : Settings) (request : FileRequest) (answers : Answers)
    (storage : Storage) : Option (Except ErrorPage (List Char)) × Storage :=
  match checkBans answers request.file with
  | .error page => (some (.error page), storage)
  | .ok () =>
      match findDuplicate settings answers with
      | .error page => (some (.error page), storage)
      | .ok (some existing) => (some (.ok existing.slug), storage)
      | .ok none =>
          match allocateUniqueSlug env.collation settings.slugs storage.uploads
              (slugRequest answers request) request.idLen 0 answers.draws with
          | none => (none, storage)
          | some (.error ()) => (some (.error internalErr), storage)
          | some (.ok slug) =>
              match calculateExpiry request.file.content.length settings.retention answers.now with
              | none => (none, storage)
              | some expiry =>
                  if answers.createDirFails then (some (.error internalErr), storage)
                  else
                    let row := newRow env request answers slug expiry
                    let (result, after) := saveAndInsert env request answers row storage
                    (some result, after)

/-- The file gets as far as being saved, under this row. -/
structure ReachesSave (env : StoreEnv) (settings : Settings) (request : FileRequest)
    (answers : Answers) (storage : Storage) (row : Upload) : Prop where
  passes : checkBans answers request.file = .ok ()
  unique : findDuplicate settings answers = .ok none
  named : allocateUniqueSlug env.collation settings.slugs storage.uploads
    (slugRequest answers request) request.idLen 0 answers.draws = some (.ok row.slug)
  kept : calculateExpiry request.file.content.length settings.retention answers.now =
    some row.expiryTimestamp
  housed : answers.createDirFails = false
  described : row = newRow env request answers row.slug row.expiryTimestamp

variable {env : StoreEnv} {settings : Settings} {request : FileRequest} {answers : Answers}
  {storage : Storage}

variable (env request answers storage) in
/-- What is written stays; the row is added, or the answer is the generic error. -/
theorem saveAndInsert_cases (row : Upload) :
    (saveAndInsert env request answers row storage).2.files =
        saveFile answers.save request.file.content (uuidToPath env.root answers.uuid)
          storage.files ∧
      ((saveAndInsert env request answers row storage).1 = .error internalErr ∧
          (saveAndInsert env request answers row storage).2.uploads = storage.uploads ∨
        (saveAndInsert env request answers row storage).1 = .ok row.slug ∧
          answers.save.succeeds = true ∧ answers.insertFails = false ∧
          storage.uploads.insertUploadRow row =
            some (saveAndInsert env request answers row storage).2.uploads) := by
  simp only [saveAndInsert]
  cases saved : answers.save.succeeds with
  | false => exact ⟨rfl, .inl ⟨rfl, rfl⟩⟩
  | true =>
      cases fails : answers.insertFails with
      | true => exact ⟨rfl, .inl ⟨rfl, rfl⟩⟩
      | false =>
          cases inserted : storage.uploads.insertUploadRow row with
          | none => exact ⟨rfl, .inl ⟨rfl, rfl⟩⟩
          | some uploads => exact ⟨rfl, .inr ⟨rfl, rfl, rfl, rfl⟩⟩

variable (env request answers storage) in
theorem saveAndInsert_files (row : Upload) :
    (saveAndInsert env request answers row storage).2.files =
      saveFile answers.save request.file.content (uuidToPath env.root answers.uuid)
        storage.files :=
  (saveAndInsert_cases env request answers storage row).1

theorem saveAndInsert_uploads_of_error {row : Upload} {page : ErrorPage}
    (failed : (saveAndInsert env request answers row storage).1 = .error page) :
    (saveAndInsert env request answers row storage).2.uploads = storage.uploads := by
  rcases (saveAndInsert_cases env request answers storage row).2 with ⟨-, same⟩ | ⟨accepted, -⟩
  · exact same
  · cases failed.symm.trans accepted

theorem saveAndInsert_of_ok {row : Upload} {slug : List Char}
    (accepted : (saveAndInsert env request answers row storage).1 = .ok slug) :
    slug = row.slug ∧ storage.uploads.insertUploadRow row =
      some (saveAndInsert env request answers row storage).2.uploads := by
  rcases (saveAndInsert_cases env request answers storage row).2 with
    ⟨failed, -⟩ | ⟨named, -, -, inserted⟩
  · cases accepted.symm.trans failed
  · exact ⟨Except.ok.inj (accepted.symm.trans named), inserted⟩

variable (env request answers storage) in
theorem saveAndInsert_uploads (row : Upload) :
    (saveAndInsert env request answers row storage).2.uploads = storage.uploads ∨
      answers.save.succeeds = true ∧ storage.uploads.insertUploadRow row =
        some (saveAndInsert env request answers row storage).2.uploads := by
  rcases (saveAndInsert_cases env request answers storage row).2 with
    ⟨-, same⟩ | ⟨-, saved, -, inserted⟩
  · exact .inl same
  · exact .inr ⟨saved, inserted⟩

theorem saveAndInsert_of_refused {row : Upload} (saved : answers.save.succeeds = true)
    (refused : storage.uploads.insertUploadRow row = none) :
    saveAndInsert env request answers row storage =
      (.error internalErr, { storage with
        files := saveFile answers.save request.file.content (uuidToPath env.root answers.uuid)
          storage.files }) := by
  simp [saveAndInsert, saved, refused]

theorem processFile_of_reachesSave {row : Upload}
    (reaches : ReachesSave env settings request answers storage row) :
    processFile env settings request answers storage =
      (some (saveAndInsert env request answers row storage).1,
        (saveAndInsert env request answers row storage).2) := by
  obtain ⟨passes, unique, named, kept, housed, described⟩ := reaches
  simp only [processFile, passes, unique, named, kept, housed, Bool.false_eq_true, if_false,
    ← described]

/-- A call that does not get as far as the save changes nothing, and its link, if
it answers one, is that of a duplicate. -/
theorem processFile_stops (stops : ¬∃ row, ReachesSave env settings request answers storage row) :
    (processFile env settings request answers storage).2 = storage ∧
      ∀ slug, (processFile env settings request answers storage).1 = some (.ok slug) →
        ∃ existing, findDuplicate settings answers = .ok (some existing) ∧
          slug = existing.slug := by
  unfold processFile
  split
  · exact ⟨rfl, nofun⟩
  · rename_i passes
    split
    · exact ⟨rfl, nofun⟩
    · rename_i existing found
      refine ⟨rfl, fun slug link => ?_⟩
      cases link
      exact ⟨existing, found, rfl⟩
    · rename_i unique
      split
      · exact ⟨rfl, nofun⟩
      · exact ⟨rfl, nofun⟩
      · rename_i slug named
        split
        · exact ⟨rfl, nofun⟩
        · rename_i expiry kept
          split
          · exact ⟨rfl, nofun⟩
          · rename_i housed
            have reaches : ReachesSave env settings request answers storage
                (newRow env request answers slug expiry) :=
              ⟨passes, unique, named, kept, by simpa using housed, rfl⟩
            exact absurd ⟨_, reaches⟩ stops

theorem processFile_unchanged
    (stops : ¬∃ row, ReachesSave env settings request answers storage row) :
    (processFile env settings request answers storage).2 = storage :=
  (processFile_stops stops).1

theorem processFile_link {slug : List Char}
    (link : (processFile env settings request answers storage).1 = some (.ok slug)) :
    (∃ existing, findDuplicate settings answers = .ok (some existing) ∧ slug = existing.slug ∧
      (processFile env settings request answers storage).2 = storage) ∨
    ∃ row, ReachesSave env settings request answers storage row ∧ slug = row.slug ∧
      storage.uploads.insertUploadRow row =
        some (processFile env settings request answers storage).2.uploads := by
  by_cases reaches : ∃ row, ReachesSave env settings request answers storage row
  · obtain ⟨row, reached⟩ := reaches
    rw [processFile_of_reachesSave reached, Option.some.injEq] at link
    obtain ⟨same, inserted⟩ := saveAndInsert_of_ok link
    rw [processFile_of_reachesSave reached]
    exact .inr ⟨row, reached, same, inserted⟩
  · obtain ⟨unchanged, duplicate⟩ := processFile_stops reaches
    obtain ⟨existing, found, same⟩ := duplicate slug link
    exact .inl ⟨existing, found, same, unchanged⟩

variable (env settings request answers storage) in
theorem processFile_uploads :
    (processFile env settings request answers storage).2.uploads = storage.uploads ∨
      ∃ row, ReachesSave env settings request answers storage row ∧
        storage.uploads.insertUploadRow row =
          some (processFile env settings request answers storage).2.uploads := by
  by_cases reaches : ∃ row, ReachesSave env settings request answers storage row
  · obtain ⟨row, reached⟩ := reaches
    rw [processFile_of_reachesSave reached]
    rcases saveAndInsert_uploads env request answers storage row with same | ⟨-, inserted⟩
    · exact .inl same
    · exact .inr ⟨row, reached, inserted⟩
  · rw [processFile_unchanged reaches]
    exact .inl rfl

theorem inserted_row_reaches {row : Upload}
    (inserted : (processFile env settings request answers storage).2.uploads.rows =
      row :: storage.uploads.rows) :
    ReachesSave env settings request answers storage row := by
  rcases processFile_uploads env settings request answers storage with
    same | ⟨candidate, reached, added⟩
  · rw [same] at inserted
    exact (List.ne_cons_self inserted).elim
  · rw [(Uploads.insertUploadRow_rows added).1, List.cons.injEq] at inserted
    exact inserted.1 ▸ reached

end Filehost.Upload
