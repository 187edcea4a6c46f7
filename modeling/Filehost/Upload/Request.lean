import Filehost.Http.Responses
import Filehost.Ip.Quota
import Filehost.Upload.Process

namespace Filehost.Upload

open Filehost.Data.Checks Filehost.Database Filehost.Http Filehost.Ip Filehost.Store

/-! # An upload request

The gates are passed once, before the body is read.  Then the files are
processed one by one, and the first that is rejected ends the request. -/

structure UploadSettings where
  files : Settings
  baseUrl : List Char
  minIdLength : Nat
  maxIdLength : Nat
  maxUploadsPerDay : Option Nat
  maxBytesPerDay : Option Nat

structure UploadForm where
  files : List HashedTempFile
  idLength : Option Nat
  keepName : Bool

/-- `client` is what `extract_ip` answers; a malformed body has the response the
form parser makes of it. -/
structure UploadRequest where
  client : Option IpAddr
  userAgent : Option (List Char)
  formatted : Bool
  form : Except TextResponse UploadForm

/-- What the calls of the gates answer, `none` for an error. -/
structure GateAnswers where
  isIpBanned : Option Bool
  isUserAgentBanned : Option Bool
  countFails : Bool
  bytesFail : Bool
  needsChallenge : Option Bool

def inQuotaRange (client : IpAddr) (uploaderIp : List UInt8) : Bool :=
  decide (toDbBytes (quotaRange client).1 ≤ uploaderIp) &&
    decide (uploaderIp ≤ toDbBytes (quotaRange client).2)

def lastDay (table : Uploads) (client : IpAddr) (now : Int) : List Upload :=
  table.rows.filter fun row =>
    inQuotaRange client row.uploaderIp && decide (now - secondsPerDay < row.uploadTimestamp)

def uploadsCountLastDay (table : Uploads) (client : IpAddr) (now : Int) : Int :=
  (lastDay table client now).length

def sumFileSize (rows : List Upload) : Int :=
  rows.foldr (fun row sum => row.fileSize + sum) 0

/-- The cast to a signed number saturates. -/
def uploadsBytesLastDay (table : Uploads) (client : IpAddr) (now : Int) : Int :=
  min (sumFileSize (lastDay table client now)) i64Max

def ErrorPage.response (page : ErrorPage) : TextResponse :=
  errorPage page.status page.message.toList

def checkUnderLimit (limit : Option Int) (check : Option Int) (tooManyMessage : String) :
    Except ErrorPage Unit :=
  match limit with
  | none => .ok ()
  | some limit =>
      match check with
      | none => .error internalErr
      | some count => if limit ≤ count then .error ⟨429, tooManyMessage⟩ else .ok ()

/-- The checks of the client's address and agent, and of its quota. -/
def checkQuota (settings : UploadSettings) (answers : GateAnswers) (now : Int) (client : IpAddr)
    (userAgent : Option (List Char)) (table : Uploads) : Except ErrorPage Unit := do
  checkNotBanned answers.isIpBanned "Your IP is banned from uploading."
  if userAgent.isSome then
    checkNotBanned answers.isUserAgentBanned "Your client is banned from uploading."
  checkUnderLimit (settings.maxUploadsPerDay.map asI64)
    (if answers.countFails then none else some (uploadsCountLastDay table client now))
    "Upload limit reached."
  checkUnderLimit (settings.maxBytesPerDay.map asI64)
    (if answers.bytesFail then none else some (uploadsBytesLastDay table client now))
    "Daily byte quota reached."

def enforceUploadGates (settings : UploadSettings) (answers : GateAnswers) (now : Int)
    (client : IpAddr) (userAgent : Option (List Char)) (formatted : Bool) (table : Uploads) :
    Except TextResponse Unit :=
  match checkQuota settings answers now client userAgent table with
  | .error page => .error page.response
  | .ok () =>
      match answers.needsChallenge with
      | some true =>
          .error (challengeRequiredResponse settings.baseUrl "uploading".toList formatted)
      | some false => .ok ()
      | none => .error internalErr.response

/-- A request whose files are being processed. -/
structure OpenUpload where
  client : IpAddr
  userAgent : Option (List Char)
  formatted : Bool
  idLen : Nat
  keepName : Bool
  files : List HashedTempFile

/-- `clamp` panics when its bounds are out of order. -/
def chooseIdLength (settings : UploadSettings) : Option Nat → Option Nat
  | none => some settings.minIdLength
  | some length =>
      if settings.minIdLength ≤ settings.maxIdLength then
        some (max settings.minIdLength (min length settings.maxIdLength))
      else none

/-- The handler up to its loop.  It ends here with a response, or without one. -/
def admitUpload (settings : UploadSettings) (answers : GateAnswers) (now : Int)
    (request : UploadRequest) (table : Uploads) : Except (Option TextResponse) OpenUpload :=
  match request.client with
  | none => .error (some (errorPage 500 "Could not determine your IP address.".toList))
  | some client =>
      match enforceUploadGates settings answers now client request.userAgent request.formatted
          table with
      | .error response => .error (some response)
      | .ok () =>
          match request.form with
          | .error response => .error (some response)
          | .ok form =>
              match chooseIdLength settings form.idLength with
              | none => .error none
              | some idLen => .ok ⟨client, request.userAgent, request.formatted, idLen,
                  form.keepName, form.files⟩

def OpenUpload.fileRequest (upload : OpenUpload) (file : HashedTempFile) : FileRequest where
  file := file
  uploaderIp := upload.client
  userAgent := upload.userAgent
  idLen := upload.idLen
  keepName := upload.keepName

/-- The loop over the files, each with the answers its calls get. -/
def uploadFiles (env : StoreEnv) (settings : UploadSettings) (upload : OpenUpload) :
    List (HashedTempFile × Answers) → List (List Char) → Storage →
      Option (Except ErrorPage (List (List Char))) × Storage
  | [], links, storage => (some (.ok links), storage)
  | (file, answers) :: rest, links, storage =>
      match processFile env settings.files (upload.fileRequest file) answers storage with
      | (some (.ok slug), after) =>
          uploadFiles env settings upload rest (links ++ [linkTo settings.baseUrl slug]) after
      | (some (.error page), after) => (some (.error page), after)
      | (none, after) => (none, after)

/-- `upload`.  It does not answer when the processing of a file does not. -/
def upload (env : StoreEnv) (settings : UploadSettings) (gates : GateAnswers) (now : Int)
    (request : UploadRequest) (answers : Nat → Answers) (storage : Storage) :
    Option TextResponse × Storage :=
  match admitUpload settings gates now request storage.uploads with
  | .error response => (response, storage)
  | .ok opened =>
      match uploadFiles env settings opened
          (opened.files.mapIdx fun index file => (file, answers index)) [] storage with
      | (some (.ok links), after) => (some (formatLinks links opened.formatted), after)
      | (some (.error page), after) => (some page.response, after)
      | (none, after) => (none, after)

variable {settings : UploadSettings} {gates : GateAnswers} {now : Int} {request : UploadRequest}
  {table : Uploads}

/-- A count that passes is below the limit there is. -/
theorem checkUnderLimit_ok {limit : Option Nat} {fails : Bool} {count : Int} {tooManyMessage : String}
    (passed : checkUnderLimit (limit.map asI64) (if fails then none else some count) tooManyMessage =
      .ok ()) {bound : Nat} (configured : limit = some bound) : count < asI64 bound := by
  rw [configured] at passed
  cases fails with
  | true => cases passed
  | false =>
      simp only [Option.map_some, Bool.false_eq_true, if_false, checkUnderLimit] at passed
      split at passed
      · cases passed
      · omega

theorem checkQuota_ok {client : IpAddr} {userAgent : Option (List Char)}
    (passed : checkQuota settings gates now client userAgent table = .ok ()) :
    (∀ limit, settings.maxUploadsPerDay = some limit →
      uploadsCountLastDay table client now < asI64 limit) ∧
    ∀ limit, settings.maxBytesPerDay = some limit →
      uploadsBytesLastDay table client now < asI64 limit := by
  simp only [checkQuota] at passed
  obtain ⟨_, -, passed⟩ := bind_eq_ok.mp passed
  have quotas : (do
      checkUnderLimit (settings.maxUploadsPerDay.map asI64)
        (if gates.countFails then none else some (uploadsCountLastDay table client now))
        "Upload limit reached."
      checkUnderLimit (settings.maxBytesPerDay.map asI64)
        (if gates.bytesFail then none else some (uploadsBytesLastDay table client now))
        "Daily byte quota reached.") = .ok () := by
    cases userAgent with
    | none => exact passed
    | some agent =>
        obtain ⟨_, -, rest⟩ := bind_eq_ok.mp passed
        exact rest
  obtain ⟨_, counted, metered⟩ := bind_eq_ok.mp quotas
  exact ⟨fun _ configured => checkUnderLimit_ok counted configured,
    fun _ configured => checkUnderLimit_ok metered configured⟩

theorem enforceUploadGates_ok {client : IpAddr} {userAgent : Option (List Char)} {formatted : Bool}
    (passed : enforceUploadGates settings gates now client userAgent formatted table = .ok ()) :
    checkQuota settings gates now client userAgent table = .ok () := by
  unfold enforceUploadGates at passed
  cases checked : checkQuota settings gates now client userAgent table with
  | error page =>
      rw [checked] at passed
      contradiction
  | ok _ => rfl

/-- A request is admitted with the form it brings, once its client's quota has passed. -/
theorem admitUpload_ok {opened : OpenUpload}
    (admitted : admitUpload settings gates now request table = .ok opened) :
    request.client = some opened.client ∧ request.formatted = opened.formatted ∧
      checkQuota settings gates now opened.client request.userAgent table = .ok () ∧
      ∃ form, request.form = .ok form ∧ opened.files = form.files := by
  unfold admitUpload at admitted
  split at admitted
  · contradiction
  · rename_i client extracted
    split at admitted
    · contradiction
    · rename_i passed
      split at admitted
      · contradiction
      · rename_i form parsed
        split at admitted
        · contradiction
        · cases admitted
          exact ⟨extracted, rfl, enforceUploadGates_ok passed, form, parsed, rfl⟩

end Filehost.Upload
