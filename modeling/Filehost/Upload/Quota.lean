import Filehost.Data.Transition
import Filehost.Data.WindowQuota
import Filehost.Store.Sharing
import Filehost.Upload.Rejection
import Filehost.Upload.Request

namespace Filehost.Upload

open Filehost.Data Filehost.Database Filehost.Http Filehost.Ip Filehost.Store
open Filehost.Data.WindowQuota

/-! # Daily quotas

Requests come one after another, and each passes the gates once.  Its files
follow at their own times; uploads may be deleted meanwhile. -/

/-- `admittedFiles` remembers how many files the last request brought that passed the
gates. -/
structure QuotaState where
  storage : Storage
  clock : Int
  current : Option OpenUpload
  admittedFiles : Nat

def QuotaState.initial (clock : Int) : QuotaState := ⟨.empty, clock, none, 0⟩

inductive QuotaEvent where
  | begin (request : UploadRequest) (gates : GateAnswers)
  | file (answers : Answers)
  | close
  | delete (target : DeleteTarget) (faults : DeleteFaults)
  | elapse (seconds : Nat)

def totalLimit (settings : UploadSettings) : Nat :=
  settings.files.retention.maxFilesize * 1024 * 1024 % usizeMod

def fileBytes (files : List HashedTempFile) : Nat :=
  files.foldr (fun file sum => file.content.length + sum) 0

/-- The next file of the request; one that is rejected ends it. -/
def processNext (env : StoreEnv) (settings : UploadSettings) (state : QuotaState)
    (upload : OpenUpload) (answers : Answers) : QuotaState :=
  match upload.files with
  | [] => state
  | file :: rest =>
      match processFile env settings.files (upload.fileRequest file) answers state.storage with
      | (some (.ok _), storage) => { state with storage, current := some { upload with files := rest } }
      | (_, storage) => { state with storage, current := none }

/-- The form parser holds the files of a request to its total limit. -/
def quotaSystem (env : StoreEnv) (settings : UploadSettings) : System QuotaState QuotaEvent where
  enabled state
    | .begin request _ => state.current = none ∧
        ∀ form, request.form = .ok form → fileBytes form.files ≤ totalLimit settings
    | .file answers => ∃ upload, state.current = some upload ∧ answers.now = state.clock
    | .close | .delete _ _ | .elapse _ => True
  next state
    | .begin request gates =>
        match admitUpload settings gates state.clock request state.storage.uploads with
        | .ok upload => { state with current := some upload, admittedFiles := upload.files.length }
        | .error _ => state
    | .file answers =>
        match state.current with
        | none => state
        | some upload => processNext env settings state upload answers
    | .close => { state with current := none }
    | .delete target faults =>
        { state with storage := (deleteMatching env faults target state.clock state.storage).1 }
    | .elapse seconds => { state with clock := state.clock + seconds }

/-- What a quota counts of a row, and of the file that becomes one. -/
structure Meter where
  row : Upload → Int
  file : HashedTempFile → Int
  nonneg : ∀ content, 0 ≤ file content
  inserted : ∀ env request answers slug expiry,
    row (newRow env request answers slug expiry) = file request.file
  deleted : ∀ now upload, row (Uploads.markDeleted now upload) = row upload

def countMeter : Meter where
  row _ := 1
  file _ := 1
  nonneg _ := by decide
  inserted _ _ _ _ _ := rfl
  deleted _ _ := rfl

def byteMeter : Meter where
  row upload := upload.fileSize
  file content := content.content.length
  nonneg _ := Int.natCast_nonneg _
  inserted _ _ _ _ _ := rfl
  deleted _ _ := rfl

def Meter.charge (meter : Meter) (row : Upload) : Charge := ⟨row.uploadTimestamp, meter.row row⟩

/-- What the rows of a client's range have charged. -/
def Meter.log (meter : Meter) (client : IpAddr) (table : Uploads) : List Charge :=
  (table.rows.filter fun row => inQuotaRange client row.uploaderIp).map meter.charge

def Meter.pending (meter : Meter) (files : List HashedTempFile) : Int :=
  files.foldr (fun file sum => meter.file file + sum) 0

/-- What the open request may still charge to the client's range. -/
def Meter.allowance (meter : Meter) (client : IpAddr) : Option OpenUpload → Int
  | some upload =>
      if inQuotaRange client (toDbBytes upload.client) then meter.pending upload.files else 0
  | none => 0

variable {env : StoreEnv} {settings : UploadSettings} {meter : Meter} {client : IpAddr}
  {table after : Uploads} {state : QuotaState}

theorem next_file_of_closed {answers : Answers} (closed : state.current = none) :
    (quotaSystem env settings).next state (.file answers) = state := by
  simp only [quotaSystem, closed]

theorem next_file_of_open {answers : Answers} {upload : OpenUpload}
    (current : state.current = some upload) :
    (quotaSystem env settings).next state (.file answers) =
      processNext env settings state upload answers := by
  simp only [quotaSystem, current]

theorem next_begin_storage (request : UploadRequest) (gates : GateAnswers) :
    ((quotaSystem env settings).next state (.begin request gates)).storage = state.storage := by
  simp only [quotaSystem]
  split <;> rfl

theorem processNext_of_done {answers : Answers} {upload : OpenUpload} (done : upload.files = []) :
    processNext env settings state upload answers = state := by
  simp only [processNext, done]

/-- A file leaves the storage as `process_file` does, and the rest of the request
open or none of it. -/
theorem processNext_spec {answers : Answers} {upload : OpenUpload} {file : HashedTempFile}
    {rest : List HashedTempFile} (opened : upload.files = file :: rest) :
    ∃ current, processNext env settings state upload answers =
        { state with
          storage := (processFile env settings.files (upload.fileRequest file) answers
            state.storage).2
          current } ∧
      (current = none ∨ current = some { upload with files := rest }) := by
  simp only [processNext, opened]
  generalize processFile env settings.files (upload.fileRequest file) answers state.storage = result
  obtain ⟨outcome, storage⟩ := result
  cases outcome with
  | none => exact ⟨none, rfl, .inl rfl⟩
  | some outcome =>
      cases outcome with
      | error page => exact ⟨none, rfl, .inl rfl⟩
      | ok slug => exact ⟨_, rfl, .inr rfl⟩

theorem uploadFiles_upload (upload : OpenUpload) (files : List HashedTempFile)
    (pairs : List (HashedTempFile × Answers)) (links : List (List Char)) (storage : Storage) :
    uploadFiles env settings { upload with files } pairs links storage =
      uploadFiles env settings upload pairs links storage := by
  induction pairs generalizing links storage with
  | nil => rfl
  | cons pair rest ih => simp only [uploadFiles, ih, OpenUpload.fileRequest]

theorem after_files_of_closed (closed : state.current = none)
    (pairs : List (HashedTempFile × Answers)) :
    (quotaSystem env settings).after state (pairs.map fun pair => .file pair.2) = state := by
  induction pairs with
  | nil => rfl
  | cons pair rest ih => rw [List.map_cons, System.after, ih, next_file_of_closed closed]

/-- File after file, the system does what the loop of the handler does. -/
theorem after_files_storage {upload : OpenUpload} {pairs : List (HashedTempFile × Answers)}
    (current : state.current = some upload) (files : upload.files = pairs.map Prod.fst)
    (links : List (List Char)) :
    ((quotaSystem env settings).after state
        (pairs.reverse.map fun pair => .file pair.2)).storage =
      (uploadFiles env settings upload pairs links state.storage).2 := by
  induction pairs generalizing state upload links with
  | nil => rfl
  | cons pair rest ih =>
      obtain ⟨file, answers⟩ := pair
      rw [List.reverse_cons, List.map_append, System.after_append]
      have first : (quotaSystem env settings).after state [.file answers] =
          processNext env settings state upload answers := next_file_of_open current
      rw [List.map_singleton, first, processNext, files, uploadFiles, List.map_cons]
      dsimp only
      generalize processFile env settings.files (upload.fileRequest file) answers state.storage =
        result
      obtain ⟨outcome, storage⟩ := result
      cases outcome with
      | none => rw [after_files_of_closed rfl]
      | some outcome =>
          cases outcome with
          | error page => rw [after_files_of_closed rfl]
          | ok slug =>
              apply (ih rfl rfl (links ++ [linkTo settings.baseUrl slug])).trans
              rw [uploadFiles_upload]

theorem Meter.log_recent (meter : Meter) (client : IpAddr) (table : Uploads) (now : Int) :
    recent secondsPerDay now (meter.log client table) =
      (lastDay table client now).map meter.charge := by
  rw [recent, Meter.log, List.filter_map, List.filter_filter, lastDay]
  congr 1
  apply List.filter_congr
  intro row _
  exact Bool.and_comm _ _

theorem spent_countMeter (client : IpAddr) (table : Uploads) (now : Int) :
    spent secondsPerDay now (countMeter.log client table) = uploadsCountLastDay table client now := by
  rw [spent, Meter.log_recent, uploadsCountLastDay]
  induction lastDay table client now with
  | nil => rfl
  | cons row rest ih =>
      rw [List.map_cons, total_cons, ih, List.length_cons]
      simp only [Meter.charge, countMeter]
      omega

theorem spent_byteMeter (client : IpAddr) (table : Uploads) (now : Int) :
    spent secondsPerDay now (byteMeter.log client table) =
      sumFileSize (lastDay table client now) := by
  rw [spent, Meter.log_recent]
  induction lastDay table client now with
  | nil => rfl
  | cons row rest ih =>
      rw [List.map_cons, total_cons, ih]
      rfl

theorem Meter.log_insert {row : Upload} (inserted : table.insertUploadRow row = some after) :
    meter.log client after =
      if inQuotaRange client row.uploaderIp then meter.charge row :: meter.log client table
      else meter.log client table := by
  simp only [Meter.log, (Uploads.insertUploadRow_rows inserted).1, List.filter_cons]
  split <;> rfl

theorem Meter.log_setDeleted (id : Uuid) (now : Int) :
    meter.log client (table.setDeleted id now) = meter.log client table := by
  simp only [Meter.log, Uploads.setDeleted, List.filter_map, List.map_map]
  have kept : ∀ row : Upload, meter.charge (if row.id = id then Uploads.markDeleted now row else row) =
      meter.charge row := by
    intro row
    split
    · simp only [Meter.charge, meter.deleted]
      rfl
    · rfl
  have located : ∀ row : Upload,
      (if row.id = id then Uploads.markDeleted now row else row).uploaderIp = row.uploaderIp := by
    intro row
    split <;> rfl
  simp only [Function.comp_def, located, kept]

theorem Meter.log_deleteMatching (faults : DeleteFaults) (target : DeleteTarget) (now : Int)
    (storage : Storage) :
    meter.log client (deleteMatching env faults target now storage).1.uploads =
      meter.log client storage.uploads := by
  rw [deleteMatching_uploads]
  generalize markedIds faults (handledRows env faults target now storage) = ids
  generalize storage.uploads = table
  induction ids generalizing table with
  | nil => rfl
  | cons id rest ih => exact (ih _).trans (Meter.log_setDeleted id now)

theorem Meter.pending_nonneg (meter : Meter) (files : List HashedTempFile) :
    0 ≤ meter.pending files := by
  induction files with
  | nil => exact Int.le_refl _
  | cons file rest ih =>
      have positive := meter.nonneg file
      change 0 ≤ meter.file file + meter.pending rest
      omega

theorem Meter.allowance_nonneg (meter : Meter) (client : IpAddr) (current : Option OpenUpload) :
    0 ≤ meter.allowance client current := by
  cases current with
  | none => exact Int.le_refl _
  | some upload =>
      simp only [Meter.allowance]
      split
      · exact meter.pending_nonneg _
      · exact Int.le_refl _

theorem Meter.pending_countMeter (files : List HashedTempFile) :
    countMeter.pending files = files.length := by
  induction files with
  | nil => rfl
  | cons file rest ih =>
      change 1 + countMeter.pending rest = _
      rw [ih, List.length_cons]
      omega

theorem Meter.pending_byteMeter (files : List HashedTempFile) :
    byteMeter.pending files = fileBytes files := by
  induction files with
  | nil => rfl
  | cons file rest ih =>
      change (file.content.length : Int) + byteMeter.pending rest =
        (file.content.length + fileBytes rest : Nat)
      rw [ih]
      omega

/-- The client's range holds the last day to the limit and one allowance. -/
def Metered (meter : Meter) (client : IpAddr) (limit bound : Int) (state : QuotaState) : Prop :=
  Within secondsPerDay limit bound state.clock (meter.allowance client state.current)
    (meter.log client state.storage.uploads)

variable {limit bound : Int} {answers : Answers} {upload : OpenUpload}

theorem Metered.close (metered : Metered meter client limit bound state) :
    Metered meter client limit bound { state with current := none } :=
  metered.lower (meter.allowance_nonneg client state.current)

theorem Metered.elapse (metered : Metered meter client limit bound state) (seconds : Nat) :
    Metered meter client limit bound { state with clock := state.clock + seconds } :=
  Within.elapse metered (by dsimp only; omega)

theorem Metered.delete (metered : Metered meter client limit bound state) (target : DeleteTarget)
    (faults : DeleteFaults) :
    Metered meter client limit bound { state with
      storage := (deleteMatching env faults target state.clock state.storage).1 } := by
  unfold Metered
  rw [Meter.log_deleteMatching]
  exact metered

/-- What one file charges, and what the request may charge after it. -/
theorem Meter.allowance_cons (file : HashedTempFile) (rest : List HashedTempFile) :
    meter.allowance client (some { upload with files := file :: rest }) =
      (if inQuotaRange client (toDbBytes upload.client) then meter.file file else 0) +
        meter.allowance client (some { upload with files := rest }) := by
  simp only [Meter.allowance, Meter.pending, List.foldr_cons]
  split <;> omega

theorem metered_file {file : HashedTempFile} {rest : List HashedTempFile}
    (opened : upload.files = file :: rest) (current : state.current = some upload)
    (metered : Metered meter client limit bound state) :
    Within secondsPerDay limit bound state.clock
      (meter.allowance client (some { upload with files := rest }))
      (meter.log client (processFile env settings.files (upload.fileRequest file) answers
        state.storage).2.uploads) := by
  have whole : ({ upload with files := file :: rest } : OpenUpload) = upload := by
    rw [← opened]
  unfold Metered at metered
  rw [current, ← whole, Meter.allowance_cons] at metered
  have charged := meter.nonneg file
  rcases processFile_uploads env settings.files (upload.fileRequest file) answers state.storage
    with same | ⟨row, reached, inserted⟩
  · rw [same]
    apply metered.lower
    split <;> omega
  · have stored : row.uploaderIp = toDbBytes upload.client := by rw [reached.described]; rfl
    have weighed : meter.row row = meter.file file := by
      rw [reached.described, meter.inserted]
      rfl
    rw [Meter.log_insert inserted, stored]
    split
    · rename_i inside
      rw [if_pos inside] at metered
      rw [Meter.charge, weighed]
      exact metered.charge charged _
    · rename_i outside
      rw [if_neg outside] at metered
      exact metered.lower (by omega)

theorem Metered.file (metered : Metered meter client limit bound state)
    (current : state.current = some upload) :
    Metered meter client limit bound (processNext env settings state upload answers) := by
  cases opened : upload.files with
  | nil =>
      rw [processNext_of_done opened]
      exact metered
  | cons file rest =>
      have charged := @metered_file env settings meter client state limit bound answers upload
        file rest opened current metered
      obtain ⟨next, moved, either⟩ := @processNext_spec env settings state answers upload file rest
        opened
      rw [moved]
      rcases either with rfl | rfl
      · exact charged.lower (meter.allowance_nonneg client _)
      · exact charged

theorem Metered.next_file (metered : Metered meter client limit bound state) :
    Metered meter client limit bound ((quotaSystem env settings).next state (.file answers)) := by
  cases current : state.current with
  | none =>
      rw [next_file_of_closed current]
      exact metered
  | some upload =>
      rw [next_file_of_open current]
      exact metered.file current

theorem Meter.allowance_le (meter : Meter) (client : IpAddr) (upload : OpenUpload) :
    meter.allowance client (some upload) ≤ meter.pending upload.files := by
  simp only [Meter.allowance]
  split
  · exact Int.le_refl _
  · exact meter.pending_nonneg _

theorem asI64_le (value : Nat) : asI64 value ≤ value := by
  simp only [asI64, BitVec.toInt_eq_toNat_cond, BitVec.toNat_ofNat]
  split <;> omega

theorem asI64_of_lt {value : Nat} (small : value < 2 ^ 63) : asI64 value = value := by
  simp only [asI64, BitVec.toInt_eq_toNat_cond, BitVec.toNat_ofNat]
  split <;> omega

theorem quotaRange_eq {left right : IpAddr} (same : normalizeForQuota left = normalizeForQuota right) :
    quotaRange left = quotaRange right := by
  cases left with
  | v4 left =>
      cases right with
      | v4 right => rw [(normalizeForQuota_v4_eq_iff left right).mp same]
      | v6 right => exact nomatch same
  | v6 left =>
      cases right with
      | v4 right => exact nomatch same
      | v6 right =>
          have block := (normalizeForQuota_v6_eq_iff left right).mp same
          simp only [quotaRange, same, Ipv6Addr.fillTail, block]

/-- The gate counts for a client what it counts for its bucket. -/
theorem uploadsCountLastDay_eq {left right : IpAddr}
    (same : normalizeForQuota left = normalizeForQuota right) (table : Uploads) (now : Int) :
    uploadsCountLastDay table left now = uploadsCountLastDay table right now := by
  simp only [uploadsCountLastDay, lastDay, inQuotaRange, quotaRange_eq same]

/-- The requests come from one bucket. -/
def QuotaEvent.FromBucket (ip : IpAddr) : QuotaEvent → Prop
  | .begin request _ => ∀ client, request.client = some client →
      normalizeForQuota client = normalizeForQuota ip
  | _ => True

def CountMetered (ip : IpAddr) (limit : Nat) (state : QuotaState) : Prop :=
  Metered countMeter ip limit state.admittedFiles state

theorem processNext_admittedFiles (env : StoreEnv) (settings : UploadSettings) (state : QuotaState)
    (upload : OpenUpload) (answers : Answers) :
    (processNext env settings state upload answers).admittedFiles = state.admittedFiles := by
  cases opened : upload.files with
  | nil => rw [processNext_of_done opened]
  | cons file rest =>
      obtain ⟨current, moved, -⟩ := @processNext_spec env settings state answers upload file rest
        opened
      rw [moved]

theorem CountMetered.next {ip : IpAddr} {limit : Nat} {event : QuotaEvent}
    (configured : settings.maxUploadsPerDay = some limit) (bucket : event.FromBucket ip)
    (metered : CountMetered ip limit state) :
    CountMetered ip limit ((quotaSystem env settings).next state event) := by
  cases event with
  | begin request gates =>
      simp only [quotaSystem]
      cases admitted : admitUpload settings gates state.clock request state.storage.uploads with
      | error response => exact metered
      | ok upload =>
          obtain ⟨client, -, passed, -⟩ := admitUpload_ok admitted
          have below := (checkQuota_ok passed).1 limit configured
          rw [uploadsCountLastDay_eq (bucket _ client), ← spent_countMeter] at below
          have cast := asI64_le limit
          have allowed := countMeter.allowance_le ip upload
          rw [Meter.pending_countMeter] at allowed
          refine Within.admission metered.nonneg ?_ allowed
          exact below.trans_le cast
  | file answers =>
      have next : Metered countMeter ip limit state.admittedFiles
          ((quotaSystem env settings).next state (.file answers)) := Metered.next_file metered
      have same : ((quotaSystem env settings).next state (.file answers)).admittedFiles =
          state.admittedFiles := by
        cases current : state.current with
        | none => rw [next_file_of_closed current]
        | some upload =>
            rw [next_file_of_open current]
            exact processNext_admittedFiles env settings state upload answers
      unfold CountMetered
      rwa [same]
  | close => exact Metered.close metered
  | delete target faults => exact Metered.delete metered target faults
  | elapse seconds => exact Metered.elapse metered seconds

/-- With one request after another, the count stays below the limit and what the
request admitted last may add. -/
theorem count_lt_limit_and_files {limit : Nat} {ip : IpAddr} {start : Int}
    {events : List QuotaEvent} (configured : settings.maxUploadsPerDay = some limit)
    (positive : 1 ≤ limit)
    (run : ((quotaSystem env settings).restrict fun _ event => event.FromBucket ip).Run
      (.initial start) events state) :
    uploadsCountLastDay state.storage.uploads ip state.clock < limit + state.admittedFiles := by
  have initially : CountMetered ip limit (.initial start) :=
    Within.start (by omega) (Int.le_refl _)
  have metered := run.invariant initially fun state event metered enabled =>
    CountMetered.next configured enabled.2 metered
  have below := Within.spent_lt metered (countMeter.allowance_nonneg ip state.current)
  rwa [spent_countMeter] at below

def oneADay : UploadSettings where
  files := defaultSettings
  baseUrl := "http://localhost/".toList
  minIdLength := 3
  maxIdLength := 24
  maxUploadsPerDay := some 1
  maxBytesPerDay := some 1

def openGates : GateAnswers := ⟨some false, some false, false, false, some false⟩

def visitor : IpAddr := .v4 (.new 203 0 113 7)

def uploadOf (files : List HashedTempFile) : UploadRequest :=
  ⟨some visitor, none, false, .ok ⟨files, none, false⟩⟩

def smallFile (name : String) : HashedTempFile := ⟨[0x61], none, none, some name.toList⟩

def twoFileEvents : List QuotaEvent :=
  [.file { cleanAnswers 0 with uuid := firstUuid, draws := [some "def".toList] },
    .file (cleanAnswers 0), .begin (uploadOf [smallFile "a.txt", smallFile "b.txt"]) openGates]

def twoFileState : QuotaState := (quotaSystem plainEnv oneADay).after (.initial 0) twoFileEvents

theorem twoFiles_run :
    ((quotaSystem plainEnv oneADay).restrict fun _ event => event.FromBucket visitor).Run
      (.initial 0) twoFileEvents twoFileState := by
  refine .of_admits ⟨⟨⟨trivial, ⟨rfl, ?_⟩, ?_⟩, ?_, trivial⟩, ?_, trivial⟩
  · intro form parsed
    cases parsed
    decide
  · intro client same
    cases same
    rfl
  · exact ⟨_, rfl, rfl⟩
  · have opened : ((quotaSystem plainEnv oneADay).after (.initial 0)
        twoFileEvents.tail).current.isSome = true := by decide +kernel
    obtain ⟨upload, current⟩ := Option.isSome_iff_exists.mp opened
    exact ⟨upload, current, by decide +kernel⟩

/-- One request with two files takes the bucket past a limit of one. -/
theorem two_files_exceed_limit :
    oneADay.maxUploadsPerDay = some 1 ∧
      ((quotaSystem plainEnv oneADay).restrict fun _ event => event.FromBucket visitor).Run
        (.initial 0) twoFileEvents twoFileState ∧
      ¬uploadsCountLastDay twoFileState.storage.uploads visitor twoFileState.clock ≤ 1 :=
  ⟨rfl, twoFiles_run, by decide +kernel⟩

theorem two_files_lt_limit_and_files :
    uploadsCountLastDay twoFileState.storage.uploads visitor twoFileState.clock <
      (1 : Nat) + twoFileState.admittedFiles :=
  count_lt_limit_and_files rfl (by decide) twoFiles_run

/-- An IPv4 address, or a block other than `::/64`. -/
def NamesBucket : IpAddr → Prop
  | .v4 _ => True
  | .v6 address => ¬address.InZeroBlock

theorem inQuotaRange_iff (client uploader : IpAddr) :
    inQuotaRange client (toDbBytes uploader) = true ↔ countedBy client uploader := by
  simp [inQuotaRange, countedBy]

theorem inQuotaRange_self (client : IpAddr) : inQuotaRange client (toDbBytes client) = true := by
  rw [inQuotaRange_iff]
  cases client with
  | v4 address => exact (countedBy_v4_iff address _).mpr rfl
  | v6 address => exact (countedBy_v6_iff address _).mpr rfl

/-- A client whose uploads count for a bucket is charged for all of the bucket. -/
theorem inQuotaRange_covers {ip client : IpAddr} (bucket : NamesBucket ip)
    (member : inQuotaRange ip (toDbBytes client) = true) {bytes : List UInt8}
    (counted : inQuotaRange ip bytes = true) : inQuotaRange client bytes = true := by
  cases ip with
  | v4 address =>
      simp only [inQuotaRange, quotaRange, Bool.and_eq_true] at counted
      have same : bytes = toDbBytes (.v4 address) :=
        List.le_antisymm (of_decide_eq_true counted.2) (of_decide_eq_true counted.1)
      have spelled := (countedBy_v4_iff address client).mp ((inQuotaRange_iff _ _).mp member)
      rw [same, ← spelled]
      exact inQuotaRange_self client
  | v6 address =>
      have block := (countedBy_v6_iff address client).mp ((inQuotaRange_iff _ _).mp member)
      cases client with
      | v4 client =>
          rw [toDbBytes_v4_take] at block
          exact absurd block bucket
      | v6 client =>
          have same := quotaRange_eq ((normalizeForQuota_v6_eq_iff address client).mpr block)
          simpa only [inQuotaRange, same] using counted

theorem Meter.log_sublist {ip : IpAddr} (bucket : NamesBucket ip)
    (member : inQuotaRange ip (toDbBytes client) = true) :
    (meter.log ip table).Sublist (meter.log client table) :=
  (List.monotone_filter_right table.rows fun _ => inQuotaRange_covers bucket member).map _

def Meter.Sound (meter : Meter) (table : Uploads) : Prop :=
  ∀ client, Nonneg (meter.log client table)

theorem Meter.Sound.processFile {request : FileRequest} (sound : meter.Sound state.storage.uploads) :
    meter.Sound (processFile env settings.files request answers state.storage).2.uploads := by
  intro client
  rcases processFile_uploads env settings.files request answers state.storage with
    same | ⟨row, reached, inserted⟩
  · rw [same]
    exact sound client
  · rw [Meter.log_insert inserted]
    split
    · intro charge member
      rcases List.mem_cons.mp member with rfl | earlier
      · rw [reached.described, Meter.charge, meter.inserted]
        exact meter.nonneg request.file
      · exact sound client charge earlier
    · exact sound client

theorem Meter.Sound.next {event : QuotaEvent} (sound : meter.Sound state.storage.uploads) :
    meter.Sound ((quotaSystem env settings).next state event).storage.uploads := by
  cases event with
  | begin request gates =>
      simp only [quotaSystem]
      split <;> exact sound
  | file answers =>
      cases current : state.current with
      | none =>
          rw [next_file_of_closed current]
          exact sound
      | some upload =>
          rw [next_file_of_open current]
          cases opened : upload.files with
          | nil =>
              rw [processNext_of_done opened]
              exact sound
          | cons file rest =>
              obtain ⟨next, moved, -⟩ := @processNext_spec env settings state answers upload file
                rest opened
              rw [moved]
              exact sound.processFile
  | close => exact sound
  | delete target faults =>
      intro client
      simp only [quotaSystem, Meter.log_deleteMatching]
      exact sound client
  | elapse seconds => exact sound

theorem bytes_lt_of_admitted {limit : Nat} {gates : GateAnswers} {request : UploadRequest}
    {ip : IpAddr} (configured : settings.maxBytesPerDay = some limit) (small : limit < 2 ^ 63)
    (bucket : NamesBucket ip)
    (member : inQuotaRange ip (toDbBytes upload.client) = true)
    (nonneg : Nonneg (byteMeter.log upload.client state.storage.uploads))
    (admitted : admitUpload settings gates state.clock request state.storage.uploads = .ok upload) :
    spent secondsPerDay state.clock (byteMeter.log ip state.storage.uploads) < limit := by
  obtain ⟨-, -, passed, -⟩ := admitUpload_ok admitted
  have below := (checkQuota_ok passed).2 limit configured
  rw [asI64_of_lt small, uploadsBytesLastDay, ← spent_byteMeter] at below
  have part : spent secondsPerDay state.clock (byteMeter.log ip state.storage.uploads) ≤
      spent secondsPerDay state.clock (byteMeter.log upload.client state.storage.uploads) :=
    spent_le_of_sublist (Meter.log_sublist bucket member) nonneg
  have range : i64Max = 2 ^ 63 - 1 := rfl
  omega

theorem fileBytes_le_maxFilesize {request : UploadRequest} {gates : GateAnswers}
    (enabled : (quotaSystem env settings).enabled state (.begin request gates))
    (admitted : admitUpload settings gates state.clock request state.storage.uploads = .ok upload) :
    fileBytes upload.files ≤ settings.files.retention.maxFilesize * 1024 * 1024 := by
  obtain ⟨-, -, -, form, parsed, brought⟩ := admitUpload_ok admitted
  have held := enabled.2 form parsed
  rw [brought]
  exact held.trans (Nat.mod_le _ _)

structure ByteMetered (settings : UploadSettings) (ip : IpAddr) (limit : Nat) (state : QuotaState) :
    Prop where
  metered : Metered byteMeter ip limit
    (settings.files.retention.maxFilesize * 1024 * 1024 : Nat) state
  sound : byteMeter.Sound state.storage.uploads

theorem ByteMetered.next {limit : Nat} {ip : IpAddr} {event : QuotaEvent}
    (configured : settings.maxBytesPerDay = some limit) (small : limit < 2 ^ 63)
    (bucket : NamesBucket ip) (metered : ByteMetered settings ip limit state)
    (enabled : (quotaSystem env settings).enabled state event) :
    ByteMetered settings ip limit ((quotaSystem env settings).next state event) := by
  refine ⟨?_, metered.sound.next⟩
  cases event with
  | begin request gates =>
      simp only [quotaSystem]
      cases admitted : admitUpload settings gates state.clock request state.storage.uploads with
      | error response => exact metered.metered
      | ok upload =>
          have brought := fileBytes_le_maxFilesize enabled admitted
          cases member : inQuotaRange ip (toDbBytes upload.client) with
          | true =>
              have allowed := byteMeter.allowance_le ip upload
              rw [Meter.pending_byteMeter] at allowed
              exact .admission (metered.sound ip)
                (bytes_lt_of_admitted configured small bucket member (metered.sound _) admitted)
                (allowed.trans (Int.ofNat_le.mpr brought))
          | false =>
              have uncharged : byteMeter.allowance ip (some upload) = 0 := by
                simp only [Meter.allowance, member, Bool.false_eq_true, if_false]
              have closed := metered.metered.close
              unfold Metered at closed ⊢
              dsimp only
              rw [uncharged]
              exact closed
  | file answers => exact metered.metered.next_file
  | close => exact metered.metered.close
  | delete target faults => exact metered.metered.delete target faults
  | elapse seconds => exact metered.metered.elapse seconds

/-- The bytes of a bucket's last day exceed the quota by less than one request may
bring. -/
theorem bytes_lt_quota_and_request {limit : Nat} {ip : IpAddr} {start : Int}
    {events : List QuotaEvent} (configured : settings.maxBytesPerDay = some limit)
    (positive : 1 ≤ limit) (small : limit < 2 ^ 63) (bucket : NamesBucket ip)
    (run : (quotaSystem env settings).Run (.initial start) events state) :
    sumFileSize (lastDay state.storage.uploads ip state.clock) <
      limit + (settings.files.retention.maxFilesize * 1024 * 1024 : Nat) := by
  have initially : ByteMetered settings ip limit (.initial start) :=
    ⟨Within.start (by omega) (Int.natCast_nonneg _), fun _ => nofun⟩
  have metered := run.invariant initially fun state event metered enabled =>
    ByteMetered.next configured small bucket metered enabled
  have below := metered.metered.spent_lt (byteMeter.allowance_nonneg ip state.current)
  rwa [spent_byteMeter] at below

theorem two_files_lt_quota_and_request :
    sumFileSize (lastDay twoFileState.storage.uploads visitor twoFileState.clock) <
      (1 : Nat) + (oneADay.files.retention.maxFilesize * 1024 * 1024 : Nat) :=
  bytes_lt_quota_and_request rfl (by decide) (by decide) trivial twoFiles_run.of_restrict

end Filehost.Upload
