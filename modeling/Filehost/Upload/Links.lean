import Filehost.Store.Sharing
import Filehost.Upload.Quota

namespace Filehost.Upload

open Filehost.Data.Checks Filehost.Database Filehost.Http Filehost.Ip Filehost.Store

/-! # Links handed out

The handler commits file by file and returns at the first rejection, so the
rows of the files before it may stay without a link. -/

/-- Every row that the request inserted has its link in the response. -/
def HandsOutLinks (env : StoreEnv) (settings : UploadSettings) (gates : GateAnswers) (now : Int)
    (request : UploadRequest) (answers : Nat → Answers) (storage : Storage) : Prop :=
  ∀ row ∈ (upload env settings gates now request answers storage).2.uploads.rows,
    row ∉ storage.uploads.rows →
      ∃ response, (upload env settings gates now request answers storage).1 = some response ∧
        formatLink request.formatted (linkTo settings.baseUrl row.slug) <:+: response.body

/-- The file passes the bans, and a row of its content is active. -/
def IsDuplicate (settings : Settings) (file : HashedTempFile) (answers : Answers) : Prop :=
  checkBans answers file = .ok () ∧ ∃ existing, findDuplicate settings answers = .ok (some existing)

/-- The file is saved, and its row inserted. -/
structure StoredAs (env : StoreEnv) (settings : Settings) (request : FileRequest)
    (answers : Answers) (storage : Storage) (row : Upload) (uploads : Uploads) : Prop where
  reaches : ReachesSave env settings request answers storage row
  saved : answers.save.succeeds = true
  succeeds : answers.insertFails = false
  inserted : storage.uploads.insertUploadRow row = some uploads

def storedFiles (env : StoreEnv) (file : HashedTempFile) (answers : Answers)
    (files : FileSystem) : FileSystem :=
  saveFile answers.save file.content (uuidToPath env.root answers.uuid) files

def OpenUpload.withAnswers (opened : OpenUpload) (answers : Nat → Answers) :
    List (HashedTempFile × Answers) :=
  opened.files.mapIdx fun index file => (file, answers index)

/-- Each file is a duplicate, or is stored. -/
def NoneRejected (env : StoreEnv) (settings : UploadSettings) (opened : OpenUpload) :
    List (HashedTempFile × Answers) → Storage → Prop
  | [], _ => True
  | (file, answers) :: rest, storage =>
      IsDuplicate settings.files file answers ∧ NoneRejected env settings opened rest storage ∨
      ∃ row uploads, StoredAs env settings.files (opened.fileRequest file) answers storage row uploads ∧
        NoneRejected env settings opened rest
          ⟨uploads, storedFiles env file answers storage.files⟩

/-- No file is stored before the first that is rejected. -/
def NoneStoredFirst (env : StoreEnv) (settings : UploadSettings) (opened : OpenUpload) :
    List (HashedTempFile × Answers) → Storage → Prop
  | [], _ => True
  | (file, answers) :: rest, storage =>
      (IsDuplicate settings.files file answers → NoneStoredFirst env settings opened rest storage) ∧
      ¬∃ row uploads, StoredAs env settings.files (opened.fileRequest file) answers storage row uploads

variable {env : StoreEnv} {settings : UploadSettings} {fileSettings : Settings}
  {request : FileRequest} {answers : Answers} {storage : Storage} {opened : OpenUpload}

theorem processFile_of_duplicate (duplicate : IsDuplicate fileSettings request.file answers) :
    ∃ slug, processFile env fileSettings request answers storage = (some (.ok slug), storage) := by
  obtain ⟨passes, existing, found⟩ := duplicate
  refine ⟨existing.slug, ?_⟩
  simp only [processFile, passes, found]

theorem processFile_of_stored {row : Upload} {uploads : Uploads}
    (stored : StoredAs env fileSettings request answers storage row uploads) :
    processFile env fileSettings request answers storage =
      (some (.ok row.slug), ⟨uploads, storedFiles env request.file answers storage.files⟩) := by
  rw [processFile_of_reachesSave stored.reaches]
  simp [saveAndInsert, storedFiles, stored.saved, stored.succeeds, stored.inserted]

/-- Any other file is rejected, or not answered. -/
theorem processFile_of_rejected (unknown : ¬IsDuplicate fileSettings request.file answers)
    (unstored : ¬∃ row uploads, StoredAs env fileSettings request answers storage row uploads) :
    (∀ slug, (processFile env fileSettings request answers storage).1 ≠ some (.ok slug)) ∧
      (processFile env fileSettings request answers storage).2.uploads = storage.uploads := by
  by_cases reaches : ∃ row, ReachesSave env fileSettings request answers storage row
  · obtain ⟨row, reached⟩ := reaches
    rw [processFile_of_reachesSave reached]
    rcases (saveAndInsert_cases env request answers storage row).2 with
      ⟨failed, same⟩ | ⟨-, saved, succeeds, inserted⟩
    · rw [failed]
      exact ⟨nofun, same⟩
    · exact absurd ⟨row, _, reached, saved, succeeds, inserted⟩ unstored
  · obtain ⟨unchanged, duplicate⟩ := processFile_stops reaches
    refine ⟨fun slug link => ?_, by rw [unchanged]⟩
    obtain ⟨existing, found, -⟩ := duplicate slug link
    refine unknown ⟨?_, existing, found⟩
    cases passes : checkBans answers request.file with
    | ok _ => rfl
    | error page => simp [processFile, passes] at link

/-! ## The pages of a rejection -/

def OneLine (page : ErrorPage) : Prop := '\n' ∉ page.response.body

theorem internalErr_oneLine : OneLine internalErr := by
  unfold OneLine
  decide

theorem checkNotBanned_oneLine {check : Option Bool} {message : String} {page : ErrorPage}
    (plain : OneLine ⟨403, message⟩) (failed : checkNotBanned check message = .error page) :
    OneLine page := by
  cases check with
  | none =>
      cases failed
      exact internalErr_oneLine
  | some banned =>
      cases banned with
      | true =>
          cases failed
          exact plain
      | false => exact nomatch failed

theorem rejectedPage_oneLine : OneLine ⟨403, "Your upload was rejected."⟩ := by
  unfold OneLine
  decide

theorem fileTypePage_oneLine : OneLine ⟨403, "File type not allowed."⟩ := by
  unfold OneLine
  decide

theorem checkBans_oneLine {file : HashedTempFile} {page : ErrorPage}
    (failed : checkBans answers file = .error page) : OneLine page := by
  rcases bind_eq_error.mp failed with name | ⟨_, -, failed⟩
  · exact checkNotBanned_oneLine fileTypePage_oneLine name
  · rcases bind_eq_error.mp failed with mimes | ⟨_, -, hash⟩
    · obtain ⟨mime, -, banned⟩ := forM_error mimes
      exact checkNotBanned_oneLine rejectedPage_oneLine banned
    · exact checkNotBanned_oneLine rejectedPage_oneLine hash

theorem findDuplicate_page {page : ErrorPage} (failed : findDuplicate fileSettings answers = .error page) :
    page = internalErr := by
  unfold findDuplicate at failed
  split at failed
  · contradiction
  · split at failed
    · cases failed
      rfl
    · contradiction

theorem saveAndInsert_page {row : Upload} {page : ErrorPage}
    (failed : (saveAndInsert env request answers row storage).1 = .error page) :
    page = internalErr := by
  rcases (saveAndInsert_cases env request answers storage row).2 with ⟨generic, -⟩ | ⟨accepted, -⟩
  · exact Except.error.inj (failed.symm.trans generic)
  · cases failed.symm.trans accepted

/-- Past the bans every rejection is the generic one. -/
theorem processFile_page {page : ErrorPage}
    (failed : (processFile env fileSettings request answers storage).1 = some (.error page)) :
    checkBans answers request.file = .error page ∨ page = internalErr := by
  unfold processFile at failed
  cases passes : checkBans answers request.file with
  | error other =>
      simp only [passes, Option.some.injEq, Except.error.injEq] at failed
      exact .inl (congrArg _ failed)
  | ok _ =>
      simp only [passes] at failed
      refine .inr ?_
      split at failed
      · rename_i found
        cases failed
        exact findDuplicate_page found
      · cases failed
      · split at failed
        · contradiction
        · cases failed
          rfl
        · split at failed
          · contradiction
          · split at failed
            · cases failed
              rfl
            · exact saveAndInsert_page (Option.some.inj failed)

theorem processFile_oneLine {page : ErrorPage}
    (failed : (processFile env fileSettings request answers storage).1 = some (.error page)) :
    OneLine page := by
  rcases processFile_page failed with banned | generic
  · exact checkBans_oneLine banned
  · rw [generic]
    exact internalErr_oneLine

/-! ## The loop -/

variable {pairs : List (HashedTempFile × Answers)} {links : List (List Char)}

variable (env fileSettings request answers storage) in
theorem processFile_accepts_or_not :
    (∃ slug after, processFile env fileSettings request answers storage =
        (some (.ok slug), after)) ∨
      ∀ slug, (processFile env fileSettings request answers storage).1 ≠ some (.ok slug) := by
  by_cases accepts : ∃ slug, (processFile env fileSettings request answers storage).1 = some (.ok slug)
  · obtain ⟨slug, accepted⟩ := accepts
    refine .inl ⟨slug, (processFile env fileSettings request answers storage).2, ?_⟩
    rw [← accepted]
  · exact .inr fun slug accepted => accepts ⟨slug, accepted⟩

theorem uploadFiles_of_ok {file : HashedTempFile} {slug : List Char} {after : Storage}
    (accepted : processFile env settings.files (opened.fileRequest file) answers storage =
      (some (.ok slug), after)) :
    uploadFiles env settings opened ((file, answers) :: pairs) links storage =
      uploadFiles env settings opened pairs (links ++ [linkTo settings.baseUrl slug]) after := by
  simp only [uploadFiles, accepted]

/-- A file that is not accepted ends the loop with what became of it. -/
theorem uploadFiles_of_rejected {file : HashedTempFile}
    (rejected : ∀ slug, (processFile env settings.files (opened.fileRequest file) answers
      storage).1 ≠ some (.ok slug)) :
    (∀ all, (uploadFiles env settings opened ((file, answers) :: pairs) links storage).1 ≠
        some (.ok all)) ∧
      (∀ page, (uploadFiles env settings opened ((file, answers) :: pairs) links storage).1 =
        some (.error page) → (processFile env settings.files (opened.fileRequest file) answers
          storage).1 = some (.error page)) ∧
      (uploadFiles env settings opened ((file, answers) :: pairs) links storage).2 =
        (processFile env settings.files (opened.fileRequest file) answers storage).2 := by
  rw [uploadFiles]
  generalize processFile env settings.files (opened.fileRequest file) answers storage = result
    at rejected ⊢
  obtain ⟨outcome, after⟩ := result
  cases outcome with
  | none =>
      refine ⟨fun all answered => ?_, fun page answered => ?_, rfl⟩ <;> cases answered
  | some outcome =>
      cases outcome with
      | error page =>
          refine ⟨fun all answered => ?_, fun other answered => ?_, rfl⟩ <;> cases answered
          rfl
      | ok slug => exact absurd rfl (rejected slug)

theorem uploadFiles_oneLine {page : ErrorPage}
    (failed : (uploadFiles env settings opened pairs links storage).1 = some (.error page)) :
    OneLine page := by
  induction pairs generalizing links storage with
  | nil => cases failed
  | cons pair rest ih =>
      obtain ⟨file, answers⟩ := pair
      rcases processFile_accepts_or_not env settings.files (opened.fileRequest file) answers storage
        with ⟨slug, after, accepted⟩ | rejected
      · rw [uploadFiles_of_ok accepted] at failed
        exact ih failed
      · exact processFile_oneLine ((uploadFiles_of_rejected rejected).2.1 page failed)

/-- Rows are only added. -/
theorem uploadFiles_keeps {row : Upload} (member : row ∈ storage.uploads.rows) :
    row ∈ (uploadFiles env settings opened pairs links storage).2.uploads.rows := by
  induction pairs generalizing links storage with
  | nil => exact member
  | cons pair rest ih =>
      obtain ⟨file, answers⟩ := pair
      have kept : row ∈ (processFile env settings.files (opened.fileRequest file) answers
          storage).2.uploads.rows := by
        rcases processFile_uploads env settings.files (opened.fileRequest file) answers storage with
          same | ⟨added, -, inserted⟩
        · rwa [same]
        · rw [(Uploads.insertUploadRow_rows inserted).1]
          exact List.mem_cons_of_mem _ member
      rcases processFile_accepts_or_not env settings.files (opened.fileRequest file) answers storage
        with ⟨slug, after, accepted⟩ | rejected
      · rw [accepted] at kept
        rw [uploadFiles_of_ok accepted]
        exact ih kept
      · rw [(uploadFiles_of_rejected rejected).2.2]
        exact kept

theorem StoredAs.not_duplicate {row : Upload} {uploads : Uploads}
    (stored : StoredAs env fileSettings request answers storage row uploads) :
    ¬IsDuplicate fileSettings request.file answers := by
  intro duplicate
  obtain ⟨-, existing, found⟩ := duplicate
  have absent := stored.reaches.unique
  rw [found] at absent
  cases absent

variable (links) in
/-- The loop ends with the links of all files exactly when none is rejected. -/
theorem uploadFiles_answers_iff :
    (∃ all, (uploadFiles env settings opened pairs links storage).1 = some (.ok all)) ↔
      NoneRejected env settings opened pairs storage := by
  induction pairs generalizing links storage with
  | nil => exact iff_of_true ⟨links, rfl⟩ trivial
  | cons pair rest ih =>
      obtain ⟨file, answers⟩ := pair
      rw [NoneRejected]
      by_cases duplicate : IsDuplicate settings.files file answers
      · obtain ⟨slug, accepted⟩ := @processFile_of_duplicate env settings.files
          (opened.fileRequest file) answers storage duplicate
        rw [uploadFiles_of_ok accepted, ih]
        refine ⟨fun rest => .inl ⟨duplicate, rest⟩, fun either => ?_⟩
        rcases either with ⟨-, rest⟩ | ⟨row, uploads, stored, -⟩
        · exact rest
        · exact absurd duplicate stored.not_duplicate
      · by_cases stores : ∃ row uploads, StoredAs env settings.files (opened.fileRequest file)
          answers storage row uploads
        · obtain ⟨row, uploads, stored⟩ := stores
          have accepted := processFile_of_stored stored
          rw [uploadFiles_of_ok accepted, ih]
          refine ⟨fun rest => .inr ⟨row, uploads, stored, rest⟩, fun either => ?_⟩
          rcases either with ⟨known, -⟩ | ⟨other, others, again, rest⟩
          · exact absurd known duplicate
          · have same := accepted.symm.trans (processFile_of_stored again)
            simp only [Prod.mk.injEq, Storage.mk.injEq] at same
            rw [same.2.1]
            exact rest
        · have rejected := (processFile_of_rejected duplicate stores).1
          refine iff_of_false (fun answered => ?_) (fun either => ?_)
          · obtain ⟨all, answered⟩ := answered
            exact (uploadFiles_of_rejected rejected).1 all answered
          · rcases either with ⟨known, -⟩ | ⟨row, uploads, stored, -⟩
            · exact duplicate known
            · exact stores ⟨row, uploads, stored⟩

variable (links) in
/-- A loop that ends early has added no row exactly when it stored no file first. -/
theorem uploadFiles_adds_nothing_iff
    (rejected : ¬NoneRejected env settings opened pairs storage) :
    (∀ row ∈ (uploadFiles env settings opened pairs links storage).2.uploads.rows,
        row ∈ storage.uploads.rows) ↔
      NoneStoredFirst env settings opened pairs storage := by
  induction pairs generalizing links storage with
  | nil => exact absurd trivial rejected
  | cons pair rest ih =>
      obtain ⟨file, answers⟩ := pair
      rw [NoneRejected, not_or] at rejected
      rw [NoneStoredFirst]
      by_cases stores : ∃ row uploads, StoredAs env settings.files (opened.fileRequest file)
        answers storage row uploads
      · refine iff_of_false (fun kept => ?_) (fun first => first.2 stores)
        obtain ⟨row, uploads, stored⟩ := stores
        obtain ⟨added, fresh⟩ := Uploads.insertUploadRow_rows stored.inserted
        rw [uploadFiles_of_ok (processFile_of_stored stored)] at kept
        have first : row ∈ uploads.rows := by
          rw [added]
          exact List.mem_cons_self
        exact fresh (List.mem_map_of_mem (kept row (uploadFiles_keeps first)))
      · by_cases duplicate : IsDuplicate settings.files file answers
        · obtain ⟨slug, accepted⟩ := @processFile_of_duplicate env settings.files
            (opened.fileRequest file) answers storage duplicate
          have later : ¬NoneRejected env settings opened rest storage :=
            fun rest => rejected.1 ⟨duplicate, rest⟩
          rw [uploadFiles_of_ok accepted, ih _ later]
          exact ⟨fun first => ⟨fun _ => first, stores⟩, fun first => first.1 duplicate⟩
        · obtain ⟨refused, same⟩ := processFile_of_rejected duplicate stores
          refine iff_of_true (fun row member => ?_) ⟨fun known => absurd known duplicate, stores⟩
          rwa [(uploadFiles_of_rejected refused).2.2, same] at member

/-- A row that an accepted file added has the slug it is answered with. -/
theorem processFile_added {slug : List Char} {after : Storage}
    (accepted : processFile env fileSettings request answers storage = (some (.ok slug), after))
    {row : Upload} (member : row ∈ after.uploads.rows) :
    row ∈ storage.uploads.rows ∨ slug = row.slug := by
  have link := @processFile_link env fileSettings request answers storage slug
  rw [accepted] at link
  rcases link rfl with ⟨-, -, -, same⟩ | ⟨stored, -, named, inserted⟩
  · cases same
    exact .inl member
  · rw [(Uploads.insertUploadRow_rows inserted).1] at member
    rcases List.mem_cons.mp member with first | older
    · rw [first]
      exact .inr named
    · exact .inl older

/-- A loop that ends with links has one for each row it added. -/
theorem uploadFiles_links {all : List (List Char)}
    (answered : (uploadFiles env settings opened pairs links storage).1 = some (.ok all)) :
    links ⊆ all ∧ ∀ row ∈ (uploadFiles env settings opened pairs links storage).2.uploads.rows,
      row ∈ storage.uploads.rows ∨ linkTo settings.baseUrl row.slug ∈ all := by
  induction pairs generalizing links storage with
  | nil =>
      cases answered
      exact ⟨fun _ member => member, fun _ member => .inl member⟩
  | cons pair rest ih =>
      obtain ⟨file, answers⟩ := pair
      rcases processFile_accepts_or_not env settings.files (opened.fileRequest file) answers storage
        with ⟨slug, after, accepted⟩ | rejected
      · rw [uploadFiles_of_ok accepted] at answered ⊢
        obtain ⟨kept, added⟩ := ih answered
        refine ⟨fun url member => kept (List.mem_append_left _ member), fun row member => ?_⟩
        rcases added row member with earlier | later
        · rcases processFile_added accepted earlier with older | named
          · exact .inl older
          · rw [← named]
            exact .inr (kept (List.mem_append_right _ (List.mem_singleton_self _)))
        · exact .inr later
      · exact absurd answered ((uploadFiles_of_rejected rejected).1 all)

theorem upload_of_admitted {gates : GateAnswers} {now : Int} {request : UploadRequest}
    {answers : Nat → Answers}
    (admitted : admitUpload settings gates now request storage.uploads = .ok opened) :
    (upload env settings gates now request answers storage).2 =
        (uploadFiles env settings opened (opened.withAnswers answers) [] storage).2 ∧
      (upload env settings gates now request answers storage).1 =
        match (uploadFiles env settings opened (opened.withAnswers answers) [] storage).1 with
        | some (.ok links) => some (formatLinks links opened.formatted)
        | some (.error page) => some page.response
        | none => none := by
  simp only [upload, admitted, OpenUpload.withAnswers]
  generalize uploadFiles env settings opened _ [] storage = result
  obtain ⟨outcome, after⟩ := result
  cases outcome with
  | none => exact ⟨rfl, rfl⟩
  | some outcome => cases outcome <;> exact ⟨rfl, rfl⟩

/-- A loop that ended without links is answered without one. -/
theorem not_carried_of_rejected (rejected : ¬NoneRejected env settings opened pairs storage)
    {response : TextResponse} {formatted : Bool} {url : List Char}
    (answered : (match (uploadFiles env settings opened pairs [] storage).1 with
      | some (.ok links) => some (formatLinks links opened.formatted)
      | some (.error page) => some page.response
      | none => none) = some response) : ¬formatLink formatted url <:+: response.body := by
  refine formatLink_not_infix ?_ formatted url
  cases ended : (uploadFiles env settings opened pairs [] storage).1 with
  | none =>
      rw [ended] at answered
      cases answered
  | some outcome =>
      rw [ended] at answered
      cases outcome with
      | error page =>
          cases answered
          exact uploadFiles_oneLine ended
      | ok links => exact absurd ((uploadFiles_answers_iff []).mp ⟨links, ended⟩) rejected

/-- Every row of a request has its link in the response exactly when, once the
request is admitted, no file is rejected or none was stored before the first that
is. -/
theorem hands_out_links_iff (env : StoreEnv) (settings : UploadSettings) (gates : GateAnswers)
    (now : Int) (request : UploadRequest) (answers : Nat → Answers) (storage : Storage) :
    HandsOutLinks env settings gates now request answers storage ↔
      ∀ opened, admitUpload settings gates now request storage.uploads = .ok opened →
        NoneRejected env settings opened (opened.withAnswers answers) storage ∨
          NoneStoredFirst env settings opened (opened.withAnswers answers) storage := by
  unfold HandsOutLinks
  cases admitted : admitUpload settings gates now request storage.uploads with
  | error response =>
      have same : (upload env settings gates now request answers storage).2 = storage := by
        simp only [upload, admitted]
      rw [same]
      exact iff_of_true (fun row member fresh => absurd member fresh) nofun
  | ok opened =>
      obtain ⟨-, formatted, -⟩ := admitUpload_ok admitted
      obtain ⟨after, response⟩ := @upload_of_admitted env settings storage opened gates now request
        answers admitted
      rw [after, response, formatted]
      simp only [Except.ok.injEq, forall_eq']
      by_cases none : NoneRejected env settings opened (opened.withAnswers answers) storage
      · refine iff_of_true (fun row member fresh => ?_) (.inl none)
        obtain ⟨all, answered⟩ := (uploadFiles_answers_iff []).mpr none
        rw [answered]
        refine ⟨_, rfl, formatLink_infix_formatLinks ?_ opened.formatted⟩
        exact ((uploadFiles_links answered).2 row member).resolve_left fresh
      · rw [or_iff_right none, ← uploadFiles_adds_nothing_iff [] none]
        constructor
        · intro handed row member
          by_contra fresh
          obtain ⟨response, answered, carried⟩ := handed row member fresh
          exact not_carried_of_rejected none answered carried
        · intro kept row member fresh
          exact absurd (kept row member) fresh

def bannedSecond (index : Nat) : Answers :=
  { cleanAnswers 0 with filenameBanned := some (index == 1) }

def secondBannedUpload : Option TextResponse × Storage :=
  upload plainEnv oneADay openGates 0 (uploadOf [smallFile "a.txt", smallFile "b.exe"])
    bannedSecond .empty

theorem secondBannedUpload_response :
    secondBannedUpload.1 = some (errorPage 403 "File type not allowed.".toList) := by
  decide +kernel

theorem secondBannedUpload_rows : secondBannedUpload.2.uploads.rows.isEmpty = false := by
  decide +kernel

/-- The first file is stored, the second is rejected, and the client is told of the
second only. -/
theorem stored_file_without_link :
    ¬HandsOutLinks plainEnv oneADay openGates 0
      (uploadOf [smallFile "a.txt", smallFile "b.exe"]) bannedSecond .empty := by
  intro handed
  obtain ⟨row, member⟩ := List.isEmpty_eq_false_iff_exists_mem.mp secondBannedUpload_rows
  obtain ⟨response, answered, carried⟩ := handed row member List.not_mem_nil
  cases answered.symm.trans secondBannedUpload_response
  exact formatLink_not_infix fileTypePage_oneLine _ _ carried

end Filehost.Upload
