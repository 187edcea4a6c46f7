import Filehost.Upload.Rejection

namespace Filehost.Upload

open Filehost.Data.Checks Filehost.Database Filehost.Store

/-! # Banned types

The list is asked about the declared and the sniffed type, parameters included.
The type that is stored may come from elsewhere. -/

def guessedText (answers : Answers) (file : HashedTempFile) : List Char :=
  ((answers.fromPath (originalName file)).map Mime.text).getD octetStream

def sniffedText (file : HashedTempFile) : Bool :=
  file.detectedContentType.any fun detected => detected.type = textType

/-- The type an upload is stored under, unless the list was asked about it on its
own: a sniffed or declared type with parameters, a guess, or a fallback. -/
def unscreenedType (answers : Answers) (file : HashedTempFile) : Option (List Char) :=
  match file.detectedContentType.filter Mime.isSpecific,
    file.contentType.filter fun declared => !declared.isOctetStream with
  | some detected, _ => if detected.params = [] then none else some detected.essence
  | none, some declared => if declared.params = [] then none else some declared.essence
  | none, none =>
      if sniffedText file && guessedText answers file = octetStream then some plainText
      else some (essenceOf (guessedText answers file))

variable {env : StoreEnv} {settings : Settings} {request : FileRequest} {answers : Answers}
  {storage : Storage}

theorem lower_not_banned {mime : Mime}
    (passed : checkNotBanned (isMimeBanned answers mime.text) "Your upload was rejected." = .ok ())
    (plain : mime.params = []) : mime.essence ∉ answers.mimes.entries := by
  rw [← mime.lower_text plain]
  unfold isMimeBanned at passed
  intro banned
  split at passed
  · contradiction
  · simp [banned, checkNotBanned] at passed

theorem screened_not_banned (passes : checkBans answers request.file = .ok ()) {mime : Mime}
    (member : request.file.contentType = some mime ∨
      request.file.detectedContentType = some mime)
    (plain : mime.params = []) : mime.essence ∉ answers.mimes.entries := by
  obtain ⟨_, -, passes⟩ := bind_eq_ok.mp passes
  obtain ⟨_, mimes, -⟩ := bind_eq_ok.mp passes
  refine lower_not_banned (forM_ok mimes mime ?_) plain
  rcases member with declared | detected
  · simp [declared]
  · simp [detected]

theorem contentTypeForDb_of_specific {file : HashedTempFile} {detected : Mime}
    (found : file.detectedContentType.filter Mime.isSpecific = some detected) :
    contentTypeForDb answers file = detected.text := by
  obtain ⟨sniffed, specific⟩ := Option.filter_eq_some_iff.mp found
  simp [contentTypeForDb, reconcileContentTypeForDb, sniffed, specific]

theorem contentTypeForDb_of_fallback {file : HashedTempFile}
    (absent : file.detectedContentType.filter Mime.isSpecific = none) :
    contentTypeForDb answers file =
      let declared := (determineContentType answers.fromPath file (originalName file)).1
      if sniffedText file && declared = octetStream then plainText else declared := by
  unfold contentTypeForDb reconcileContentTypeForDb sniffedText
  cases sniffed : file.detectedContentType with
  | none => simp
  | some detected =>
      have unspecific : detected.isSpecific = false := by
        simpa [sniffed, Option.filter_eq_none_iff] using absent
      simp [unspecific]

theorem determineContentType_of_declared (answers : Answers) {file : HashedTempFile} {declared : Mime}
    (found : (file.contentType.filter fun declared => !declared.isOctetStream) = some declared) :
    (determineContentType answers.fromPath file (originalName file)).1 = declared.text ∧
      declared.text ≠ octetStream := by
  obtain ⟨present, meaningful⟩ := Option.filter_eq_some_iff.mp found
  exact ⟨by simp [determineContentType, present, meaningful],
    by simpa [Mime.isOctetStream] using meaningful⟩

theorem determineContentType_of_guess {file : HashedTempFile}
    (absent : (file.contentType.filter fun declared => !declared.isOctetStream) = none) :
    (determineContentType answers.fromPath file (originalName file)).1 =
      guessedText answers file := by
  unfold determineContentType
  cases declared : file.contentType with
  | none => rfl
  | some mime =>
      have meaningless : mime.isOctetStream = true := by
        simpa [declared, Option.filter_eq_none_iff] using absent
      simp [meaningless, guessedText]

theorem essenceOf_plainText : essenceOf plainText = plainText := by decide

theorem essence_banned_iff {mime : Mime}
    (screened : mime.params = [] → mime.essence ∉ answers.mimes.entries) :
    essenceOf mime.text ∉ answers.mimes.entries ↔
      ∀ essence ∈ if mime.params = [] then none else some mime.essence,
        essence ∉ answers.mimes.entries := by
  rw [mime.essenceOf_text]
  by_cases plain : mime.params = []
  · simp [plain, screened plain]
  · simp [plain]

theorem stored_banned_iff (passes : checkBans answers request.file = .ok ()) :
    essenceOf (contentTypeForDb answers request.file) ∉ answers.mimes.entries ↔
      ∀ essence ∈ unscreenedType answers request.file, essence ∉ answers.mimes.entries := by
  unfold unscreenedType
  cases sniffed : request.file.detectedContentType.filter Mime.isSpecific with
  | some detected =>
      rw [contentTypeForDb_of_specific sniffed]
      exact essence_banned_iff
        (screened_not_banned passes (.inr (Option.filter_eq_some_iff.mp sniffed).1))
  | none =>
      rw [contentTypeForDb_of_fallback sniffed]
      cases declared : request.file.contentType.filter fun declared => !declared.isOctetStream with
      | some mime =>
          obtain ⟨text, meaningful⟩ := determineContentType_of_declared answers declared
          simp only [text, meaningful, decide_false, Bool.and_false, Bool.false_eq_true, if_false]
          exact essence_banned_iff
            (screened_not_banned passes (.inl (Option.filter_eq_some_iff.mp declared).1))
      | none =>
          simp only [determineContentType_of_guess declared]
          split
          · simp [essenceOf_plainText]
          · simp

/-- The type of an inserted row is not banned exactly when the type it was stored
under was screened on its own, or is not on the list. -/
theorem inserted_type_not_banned_iff {row : Upload} {stored : List Char}
    (inserted : (processFile env settings request answers storage).2.uploads.rows =
      row :: storage.uploads.rows)
    (typed : row.contentType = some stored) :
    essenceOf stored ∉ answers.mimes.entries ↔
      ∀ essence ∈ unscreenedType answers request.file, essence ∉ answers.mimes.entries := by
  have reaches := inserted_row_reaches inserted
  rw [reaches.described] at typed
  cases typed
  exact stored_banned_iff reaches.passes

def htmlType : Mime where
  type := textType
  subtype := "html".toList
  suffix := none
  params := "; charset=utf-8".toList
  lowered := @of_decide_eq_true _ (List.decidableBAll _ _) rfl
  named := @of_decide_eq_true _ (List.decidableBAll _ _) rfl
  led := .inr ⟨_, rfl⟩

def htmlAnswers : Answers := { cleanAnswers 0 with mimes := ⟨["text/html".toList], by decide⟩ }

def htmlUpload : FileRequest :=
  { uploadBy [] with file := { emptyFile "a" with contentType := some htmlType } }

theorem htmlUpload_inserted :
    (processFile plainEnv defaultSettings htmlUpload htmlAnswers .empty).2.uploads.rows =
      newRow plainEnv htmlUpload htmlAnswers "abc".toList 15552000 :: [] := by
  decide +kernel

/-- A banned type is stored: the list is asked about it with its charset. -/
theorem declared_type_is_stored :
    ∃ row stored,
      (processFile plainEnv defaultSettings htmlUpload htmlAnswers .empty).2.uploads.rows =
        row :: Storage.empty.uploads.rows ∧
      row.contentType = some stored ∧ ¬essenceOf stored ∉ htmlAnswers.mimes.entries :=
  ⟨_, _, htmlUpload_inserted, rfl, by decide⟩

theorem inserted_type_not_banned_iff_html :
    essenceOf htmlType.text ∉ htmlAnswers.mimes.entries ↔
      ∀ essence ∈ unscreenedType htmlAnswers htmlUpload.file,
        essence ∉ htmlAnswers.mimes.entries :=
  inserted_type_not_banned_iff htmlUpload_inserted rfl

end Filehost.Upload
