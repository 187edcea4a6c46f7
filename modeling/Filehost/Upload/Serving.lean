import Filehost.Http.Responses
import Filehost.Upload.BannedTypes

namespace Filehost.Upload

open Filehost.Database Filehost.Http Filehost.Ip Filehost.Store

/-! # Serving a file

The stored type is parsed again.  From it come the disposition and, through a
second match, the type the response names. -/

theorem noParams_led : ([] : List Char) = [] ∨ ∃ rest, ([] : List Char) = ';' :: rest :=
  .inl rfl

def plainTextType : Mime where
  type := textType
  subtype := "plain".toList
  suffix := none
  params := []
  lowered := @of_decide_eq_true _ (List.decidableBAll _ _) rfl
  named := @of_decide_eq_true _ (List.decidableBAll _ _) rfl
  led := noParams_led

def octetStreamType : Mime where
  type := "application".toList
  subtype := "octet-stream".toList
  suffix := none
  params := []
  lowered := @of_decide_eq_true _ (List.decidableBAll _ _) rfl
  named := @of_decide_eq_true _ (List.decidableBAll _ _) rfl
  led := noParams_led

/-- `str::parse::<Mime>`.  The text of a type it has parsed parses to that type. -/
structure MimeParser where
  parse : List Char → Option Mime
  stable : ∀ text mime, parse text = some mime → parse mime.text = some mime
  plainText : parse plainText = some plainTextType
  octetStream : parse octetStream = some octetStreamType

inductive DispositionType where
  | inline
  | attachment
deriving DecidableEq

structure ServedFile where
  contentType : Mime
  disposition : DispositionType
  fileName : List Char
  content : List UInt8

inductive GetResponse where
  | page (response : TextResponse)
  | redirect (location : List Char)
  | file (served : ServedFile)
  | failed (status : Nat)

/-- What the checks before the lookup answer, `none` for an error. -/
structure Visit where
  client : Option IpAddr
  isIpBanned : IpAddr → Option Bool
  needsChallenge : IpAddr → Option Bool
  wantsHtml : Bool
  lookupFails : Bool

def contentDisposition (mime : Mime) : DispositionType :=
  if mime.type = "image".toList ∨ mime.type = "video".toList ∨ mime.type = "audio".toList then
    .inline
  else if mime.type = textType ∧ mime.subtype = "plain".toList then .inline
  else if mime.type = "application".toList ∧
      (mime.subtype = "json".toList ∨ mime.subtype = "pdf".toList) then .inline
  else .attachment

/-- Other text types than plain text are served as plain text. -/
def serveMime (mime : Mime) : Mime :=
  if mime.type = textType ∧ mime.subtype ≠ "plain".toList then plainTextType else mime

def storedMime (parser : MimeParser) (row : Upload) : Mime :=
  (row.contentType.bind parser.parse).getD octetStreamType

def serveRow (env : StoreEnv) (parser : MimeParser) (row : Upload) (files : FileSystem) :
    GetResponse :=
  match files.read env.hops (uuidToPath env.root row.id) with
  | none => .failed 404
  | some content =>
      let mime := storedMime parser row
      .file ⟨serveMime mime, contentDisposition mime, row.originalName, content⟩

def getFile (env : StoreEnv) (parser : MimeParser) (baseUrl : List Char) (visit : Visit)
    (storage : Storage) (slug : List Char) : GetResponse :=
  match visit.client with
  | none => .page (errorPage 403 "Could not determine your IP address.".toList)
  | some ip =>
      match visit.isIpBanned ip, visit.needsChallenge ip with
      | none, _ => .failed 500
      | some true, _ => .page (errorPage 403 "Your IP is banned.".toList)
      | some false, none => .failed 500
      | some false, some true =>
          if visit.wantsHtml then .redirect (captchaLocation baseUrl slug)
          else .page (challengeRequiredResponse baseUrl "downloading".toList false)
      | some false, some false =>
          if visit.lookupFails then .failed 500
          else
            match storage.uploads.getUploadBySlug env.collation slug with
            | none => .failed 404
            | some row => serveRow env parser row storage.files

def xmlSuffix : List Char := "+xml".toList

def scriptableTypes : List (List Char) :=
  ["text/html".toList, "application/xhtml+xml".toList, "image/svg+xml".toList,
    "text/xml".toList, "application/xml".toList]

/-- A browser runs script in a document of this type. -/
def Mime.Scriptable (mime : Mime) : Prop :=
  mime.essence ∈ scriptableTypes ∨ xmlSuffix <:+ mime.essence

instance (mime : Mime) : Decidable mime.Scriptable :=
  inferInstanceAs (Decidable (_ ∨ _))

/-- Every answer a visitor may get for the row, from any later storage. -/
def NeverActive (env : StoreEnv) (parser : MimeParser) (row : Upload) : Prop :=
  ∀ baseUrl visit storage slug served,
    storage.uploads.getUploadBySlug env.collation slug = some row →
      getFile env parser baseUrl visit storage slug = .file served →
        served.disposition = .inline → ¬served.contentType.Scriptable

/-- A type that is shown in the browser by its kind and is written in XML. -/
def Mime.InlineXml (mime : Mime) : Prop :=
  contentDisposition mime = .inline ∧ xmlSuffix <:+ mime.essence

instance (mime : Mime) : Decidable mime.InlineXml :=
  inferInstanceAs (Decidable (_ ∧ _))

/-- What says most about the file: a specific sniffed type, else a declared one,
else the guess from its name. -/
def describedType (answers : Answers) (file : HashedTempFile) : Option Mime :=
  (file.detectedContentType.filter Mime.isSpecific).or
    ((file.contentType.filter fun declared => !declared.isOctetStream).or
      (answers.fromPath (originalName file)))

def inlineLeads : List (List Char) :=
  ["image/".toList, "video/".toList, "audio/".toList, "text/plain".toList,
    "application/json".toList, "application/pdf".toList]

theorem listed_of_lead : ∀ listed ∈ scriptableTypes, ∀ lead ∈ inlineLeads,
    lead <+: listed → xmlSuffix <:+ listed := by decide

theorem Mime.lead_of_inline {mime : Mime} (inline : contentDisposition mime = .inline) :
    ∃ lead ∈ inlineLeads, lead <+: mime.essence := by
  unfold contentDisposition at inline
  split at inline
  · rename_i media
    rcases media with image | video | audio
    · exact ⟨"image/".toList, by decide, ⟨_, by rw [Mime.essence, image]; rfl⟩⟩
    · exact ⟨"video/".toList, by decide, ⟨_, by rw [Mime.essence, video]; rfl⟩⟩
    · exact ⟨"audio/".toList, by decide, ⟨_, by rw [Mime.essence, audio]; rfl⟩⟩
  · split at inline
    · rename_i plain
      exact ⟨"text/plain".toList, by decide, ⟨_, by rw [Mime.essence, plain.1, plain.2]; rfl⟩⟩
    · split at inline
      · rename_i application
        rcases application with ⟨type, json | pdf⟩
        · exact ⟨"application/json".toList, by decide, ⟨_, by rw [Mime.essence, type, json]; rfl⟩⟩
        · exact ⟨"application/pdf".toList, by decide, ⟨_, by rw [Mime.essence, type, pdf]; rfl⟩⟩
      · contradiction

theorem serveMime_of_inline {mime : Mime} (inline : contentDisposition mime = .inline) :
    serveMime mime = mime := by
  refine if_neg fun replaced => ?_
  obtain ⟨isText, notPlain⟩ := replaced
  have notMedia : ¬(mime.type = "image".toList ∨ mime.type = "video".toList ∨
      mime.type = "audio".toList) := by
    rw [isText]
    decide
  have notApplication : mime.type ≠ "application".toList := by
    rw [isText]
    decide
  rw [contentDisposition, if_neg notMedia, if_neg fun plain => notPlain plain.2,
    if_neg fun application => notApplication application.1] at inline
  contradiction

/-- Among the types shown in the browser only those written in XML run script. -/
theorem inline_scriptable_iff (mime : Mime) :
    contentDisposition mime = .inline ∧ (serveMime mime).Scriptable ↔ mime.InlineXml := by
  constructor
  · intro active
    obtain ⟨inline, scriptable⟩ := active
    rw [serveMime_of_inline inline] at scriptable
    refine ⟨inline, ?_⟩
    rcases scriptable with listed | xml
    · obtain ⟨lead, member, leads⟩ := Mime.lead_of_inline inline
      exact listed_of_lead _ listed lead member leads
    · exact xml
  · intro inlineXml
    obtain ⟨inline, xml⟩ := inlineXml
    rw [serveMime_of_inline inline]
    exact ⟨inline, .inr xml⟩

theorem Mime.InlineXml.plus_mem {mime : Mime} (inlineXml : mime.InlineXml) :
    '+' ∈ mime.text :=
  List.mem_append_left _ (inlineXml.2.subset (by decide))

theorem not_inlineXml_of_octetStream {mime : Mime} (text : mime.text = octetStream) :
    ¬mime.InlineXml := by
  intro inlineXml
  have plus := inlineXml.plus_mem
  rw [text] at plus
  revert plus
  decide

variable {env : StoreEnv} {settings : Settings} {request : FileRequest} {answers : Answers}
  {storage : Storage} {parser : MimeParser} {row : Upload}

/-- The types of the file come out of the parser too. -/
structure FromParser (parser : MimeParser) (answers : Answers) (file : HashedTempFile) : Prop where
  declared : ∀ mime, file.contentType = some mime → ∃ text, parser.parse text = some mime
  detected : ∀ mime, file.detectedContentType = some mime → ∃ text, parser.parse text = some mime
  guessed : ∀ mime, answers.fromPath (originalName file) = some mime →
    ∃ text, parser.parse text = some mime

theorem MimeParser.parse_text {mime : Mime} (parsed : ∃ text, parser.parse text = some mime) :
    parser.parse mime.text = some mime := by
  obtain ⟨text, parsed⟩ := parsed
  exact parser.stable text mime parsed

theorem storedMime_of_text {mime : Mime} (typed : row.contentType = some mime.text)
    (parsed : ∃ text, parser.parse text = some mime) : storedMime parser row = mime := by
  rw [storedMime, typed, Option.bind_some, MimeParser.parse_text parsed]
  rfl

theorem not_inlineXml_plainText (typed : row.contentType = some plainText) :
    ¬(storedMime parser row).InlineXml := by
  rw [storedMime, typed, Option.bind_some, parser.plainText]
  decide

theorem not_inlineXml_octetStream (typed : row.contentType = some octetStream) :
    ¬(storedMime parser row).InlineXml := by
  rw [storedMime, typed, Option.bind_some, parser.octetStream]
  decide

theorem guessed_inlineXml_iff {file : HashedTempFile} (produced : FromParser parser answers file)
    (typed : row.contentType = some (guessedText answers file)) :
    (storedMime parser row).InlineXml ↔
      ∃ mime, answers.fromPath (originalName file) = some mime ∧ mime.InlineXml := by
  unfold guessedText at typed
  cases guess : answers.fromPath (originalName file) with
  | none =>
      rw [guess] at typed
      simp [not_inlineXml_octetStream typed]
  | some mime =>
      rw [guess] at typed
      simp [storedMime_of_text typed (produced.guessed mime guess)]

theorem stored_inlineXml_iff {file : HashedTempFile} (produced : FromParser parser answers file)
    (typed : row.contentType = some (contentTypeForDb answers file)) :
    (storedMime parser row).InlineXml ↔
      ∃ mime, describedType answers file = some mime ∧ mime.InlineXml := by
  unfold describedType
  cases sniffed : file.detectedContentType.filter Mime.isSpecific with
  | some detected =>
      rw [contentTypeForDb_of_specific sniffed] at typed
      have parsed := produced.detected detected (Option.filter_eq_some_iff.mp sniffed).1
      simp [storedMime_of_text typed parsed]
  | none =>
      rw [contentTypeForDb_of_fallback sniffed] at typed
      cases meaningful : file.contentType.filter fun declared => !declared.isOctetStream with
      | some declared =>
          obtain ⟨text, named⟩ := determineContentType_of_declared answers meaningful
          simp only [text, named, decide_false, Bool.and_false, Bool.false_eq_true, if_false]
            at typed
          have parsed := produced.declared declared (Option.filter_eq_some_iff.mp meaningful).1
          simp [storedMime_of_text typed parsed]
      | none =>
          simp only [determineContentType_of_guess meaningful] at typed
          split at typed
          · rename_i fallback
            apply iff_of_false (not_inlineXml_plainText typed)
            intro found
            obtain ⟨mime, guess, inlineXml⟩ := found
            simp only [Option.none_or, Bool.and_eq_true, decide_eq_true_eq] at guess fallback
            refine not_inlineXml_of_octetStream ?_ inlineXml
            simpa [guessedText, guess] using fallback.2
          · simpa using guessed_inlineXml_iff produced typed

theorem serveRow_file {files : FileSystem} {served : ServedFile}
    (answered : serveRow env parser row files = .file served) :
    served.disposition = contentDisposition (storedMime parser row) ∧
      served.contentType = serveMime (storedMime parser row) := by
  unfold serveRow at answered
  split at answered
  · contradiction
  · cases answered
    exact ⟨rfl, rfl⟩

theorem getFile_file {baseUrl slug : List Char} {visit : Visit} {served : ServedFile}
    (found : storage.uploads.getUploadBySlug env.collation slug = some row)
    (answered : getFile env parser baseUrl visit storage slug = .file served) :
    serveRow env parser row storage.files = .file served := by
  unfold getFile at answered
  rw [found] at answered
  split at answered
  · contradiction
  · split at answered
    · contradiction
    · contradiction
    · contradiction
    · split at answered <;> contradiction
    · split at answered
      · contradiction
      · exact answered

def welcomeVisit : Visit where
  client := some (.v4 (.new 203 0 113 7))
  isIpBanned _ := some false
  needsChallenge _ := some false
  wantsHtml := false
  lookupFails := false

/-- A storage that holds one upload and can serve it. -/
def onlyUpload (row : Upload) : Storage := ⟨⟨[row], List.nodup_singleton _⟩, fun _ => some (.file [])⟩

variable (env parser) in
theorem onlyUpload_served (active : row.active = true) :
    (onlyUpload row).uploads.getUploadBySlug env.collation row.slug = some row ∧
      getFile env parser [] welcomeVisit (onlyUpload row) row.slug =
        .file ⟨serveMime (storedMime parser row), contentDisposition (storedMime parser row),
          row.originalName, []⟩ := by
  have found : (onlyUpload row).uploads.getUploadBySlug env.collation row.slug = some row := by
    simp [onlyUpload, Uploads.getUploadBySlug, active]
  have read : (onlyUpload row).files.read env.hops (uuidToPath env.root row.id) = some [] := by
    cases env.hops <;> rfl
  refine ⟨found, ?_⟩
  simp only [getFile, welcomeVisit, found, serveRow, read, Bool.false_eq_true, if_false]

theorem neverActive_iff (active : row.active = true) :
    NeverActive env parser row ↔ ¬(storedMime parser row).InlineXml := by
  rw [← inline_scriptable_iff]
  constructor
  · intro never shown
    obtain ⟨found, answered⟩ := onlyUpload_served env parser active
    exact never _ _ _ _ _ found answered shown.1 shown.2
  · intro inert baseUrl visit storage slug served found answered inline scriptable
    obtain ⟨disposition, contentType⟩ := serveRow_file (getFile_file found answered)
    rw [disposition] at inline
    rw [contentType] at scriptable
    exact inert ⟨inline, scriptable⟩

/-- An upload is never served as active content exactly when the type that says
most about it is not shown in the browser by its kind while written in XML. -/
theorem served_never_active_iff (produced : FromParser parser answers request.file)
    (inserted : (processFile env settings request answers storage).2.uploads.rows =
      row :: storage.uploads.rows) :
    NeverActive env parser row ↔
      ∀ mime, describedType answers request.file = some mime → ¬mime.InlineXml := by
  have described := (inserted_row_reaches inserted).described
  have active : row.active = true := by
    rw [described]
    rfl
  have typed : row.contentType = some (contentTypeForDb answers request.file) := by
    rw [described]
    rfl
  rw [neverActive_iff active, stored_inlineXml_iff produced typed, not_exists]
  exact forall_congr' fun mime => not_and

def svgType : Mime where
  type := "image".toList
  subtype := "svg".toList
  suffix := some "xml".toList
  params := []
  lowered := @of_decide_eq_true _ (List.decidableBAll _ _) rfl
  named := @of_decide_eq_true _ (List.decidableBAll _ _) rfl
  led := noParams_led

/-- A parser that knows three types. -/
def svgParser : MimeParser where
  parse text :=
    if text = svgType.text then some svgType
    else if text = plainText then some plainTextType
    else if text = octetStream then some octetStreamType
    else none
  stable text mime parsed := by
    split at parsed
    · cases parsed
      rfl
    · split at parsed
      · cases parsed
        rfl
      · split at parsed
        · cases parsed
          rfl
        · contradiction
  plainText := rfl
  octetStream := rfl

def svgUpload : FileRequest :=
  { uploadBy [] with file := { emptyFile "a.svg" with contentType := some svgType } }

theorem svgUpload_inserted :
    (processFile plainEnv defaultSettings svgUpload (cleanAnswers 0) .empty).2.uploads.rows =
      newRow plainEnv svgUpload (cleanAnswers 0) "abc.svg".toList 15552000 :: [] := by
  decide +kernel

theorem svgUpload_fromParser : FromParser svgParser (cleanAnswers 0) svgUpload.file where
  declared mime declared := by
    cases declared
    exact ⟨svgType.text, rfl⟩
  detected := nofun
  guessed := nofun

theorem svgType_inlineXml : svgType.InlineXml := by decide

/-- A drawing declared as such is shown in the browser, and may carry a script. -/
theorem svg_served_active :
    ∃ row,
      (processFile plainEnv defaultSettings svgUpload (cleanAnswers 0) .empty).2.uploads.rows =
        row :: Storage.empty.uploads.rows ∧ ¬NeverActive plainEnv svgParser row := by
  refine ⟨_, svgUpload_inserted, fun never => ?_⟩
  apply (neverActive_iff rfl).mp never
  exact (stored_inlineXml_iff svgUpload_fromParser rfl).mpr ⟨svgType, rfl, svgType_inlineXml⟩

theorem served_never_active_iff_svg :
    NeverActive plainEnv svgParser
        (newRow plainEnv svgUpload (cleanAnswers 0) "abc.svg".toList 15552000) ↔
      ∀ mime, describedType (cleanAnswers 0) svgUpload.file = some mime → ¬mime.InlineXml :=
  served_never_active_iff svgUpload_fromParser svgUpload_inserted

end Filehost.Upload
