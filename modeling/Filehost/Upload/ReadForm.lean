import Filehost.Upload.Quota
import Filehost.Upload.ReadField

namespace Filehost.Upload

open Filehost.Data.Streams Filehost.Http Filehost.Ip Filehost.RateLimit Filehost.Store

/-! # Reading a form

All the fields of a form draw on the same limits, one after another. -/

variable {Hash : Type} {reader : FieldReader Hash}

/-- Other fields take of the same limits, each what its text reader asks for.  One fails
where its stream breaks, or its text is none the reader takes, such as an `id_length` that
is no number. -/
inductive FormField where
  | file (field : FileField)
  | other (amounts : List Nat) (fails : Bool)

/-- What a form brings: its files or an error, and what was charged for it. -/
structure FormOutcome (Hash : Type) where
  files : Except MultipartError (List (ReadFile Hash))
  charges : List Call

def readFiles (reader : FieldReader Hash) (client : Option IpAddr) :
    reader.limits.State → List FormField → FormOutcome Hash
  | _, [] => ⟨.ok [], []⟩
  | limits, .file field :: rest =>
      match readField reader client field limits with
      | (.error error, state) => ⟨.error error, state.charges⟩
      | (.ok file, state) =>
          let later := readFiles reader client state.limits rest
          ⟨later.files.map (file :: ·), state.charges ++ later.charges⟩
  | limits, .other amounts fails :: rest =>
      match reader.limits.consumeAll limits amounts with
      | none => ⟨.error .overflow, []⟩
      | some after =>
          if fails then ⟨.error .payload, []⟩ else readFiles reader client after rest

/-- `respond` is the response an error is turned into. -/
def uploadForm (respond : MultipartError → TextResponse) (outcome : FormOutcome Hash)
    (idLength : Option Nat) (keepName : Bool) : Except TextResponse UploadForm :=
  match outcome.files with
  | .error error => .error (respond error)
  | .ok files => .ok ⟨files.map ReadFile.toHashedTempFile, idLength, keepName⟩

def chargedBytes (charges : List Call) : Nat := (charges.map Call.bytes).sum

variable {client : Option IpAddr} {fields others : List FormField}
  {limits : reader.limits.State} {files : List (ReadFile Hash)}

def FormField.Sound : FormField → Prop
  | .file field => field.Sound
  | .other _ fails => fails = false

/-- What a field takes of the limits. -/
def FormField.demand : FormField → Nat
  | .file field => (received field.arrivals).length
  | .other amounts _ => amounts.sum

def FormField.file? (reader : FieldReader Hash) : FormField → Option (ReadFile Hash)
  | .file field => some (field.fileOf reader)
  | .other _ _ => none

/-- The same field, cut in another way. -/
inductive FormField.Alike : FormField → FormField → Prop
  | file {field : FileField} {arrivals : List Arrival} {temp : TempName}
      (intact : ∀ arrival ∈ field.arrivals, arrival.Intact)
      (otherIntact : ∀ arrival ∈ arrivals, arrival.Intact)
      (same : received arrivals = received field.arrivals) :
      Alike (.file field) (.file { field with arrivals, temp })
  | other {amounts otherAmounts : List Nat} {fails : Bool}
      (same : otherAmounts.sum = amounts.sum) :
      Alike (.other amounts fails) (.other otherAmounts fails)

theorem readFiles_file (field : FileField) (rest : List FormField) {file : ReadFile Hash}
    (read : (readField reader client field limits).1 = .ok file) :
    readFiles reader client limits (.file field :: rest) =
      ⟨(readFiles reader client (readField reader client field limits).2.limits rest).files.map
          (file :: ·),
        (readField reader client field limits).2.charges ++
          (readFiles reader client (readField reader client field limits).2.limits rest).charges⟩ := by
  rw [readFiles]
  split
  · rename_i failed
    rw [failed] at read
    cases read
  · rename_i outcome
    rw [outcome] at read ⊢
    cases read
    rfl

theorem readFiles_file_error (field : FileField) (rest : List FormField) {error : MultipartError}
    (failed : (readField reader client field limits).1 = .error error) :
    readFiles reader client limits (.file field :: rest) =
      ⟨.error error, (readField reader client field limits).2.charges⟩ := by
  rw [readFiles]
  split
  · rename_i outcome
    rw [outcome] at failed ⊢
    cases failed
    rfl
  · rename_i outcome
    rw [outcome] at failed
    cases failed

theorem readFiles_file_ok_iff (field : FileField) (rest : List FormField) :
    (readFiles reader client limits (.file field :: rest)).files = .ok files ↔
      ∃ file tail, (readField reader client field limits).1 = .ok file ∧
        (readFiles reader client (readField reader client field limits).2.limits rest).files = .ok tail ∧
        files = file :: tail := by
  cases read : (readField reader client field limits).1 with
  | error error =>
      rw [readFiles_file_error field rest read]
      constructor
      · intro whole
        cases whole
      · rintro ⟨_, _, succeeded, -⟩
        cases succeeded
  | ok file =>
      rw [readFiles_file field rest read]
      cases later : (readFiles reader client
          (readField reader client field limits).2.limits rest).files with
      | error error =>
          constructor
          · intro whole
            cases whole
          · rintro ⟨_, _, -, succeeded, -⟩
            cases succeeded
      | ok tail =>
          constructor
          · intro whole
            exact ⟨file, tail, rfl, rfl, (Except.ok.inj whole).symm⟩
          · rintro ⟨_, _, first, second, rfl⟩
            cases first
            cases second
            rfl

theorem readFiles_other_ok_iff (amounts : List Nat) (fails : Bool) (rest : List FormField) :
    (readFiles reader client limits (.other amounts fails :: rest)).files = .ok files ↔
      fails = false ∧ ∃ after, reader.limits.consumeAll limits amounts = some after ∧
        (readFiles reader client after rest).files = .ok files := by
  rw [readFiles]
  cases reader.limits.consumeAll limits amounts with
  | none => simp
  | some after => cases fails <;> simp

/-- A form is read exactly where every field is sound and all of them together fit. -/
theorem readFiles_eq_ok_iff (reader : FieldReader Hash) (client : Option IpAddr)
    (limits : reader.limits.State) (fields : List FormField) (files : List (ReadFile Hash)) :
    (readFiles reader client limits fields).files = .ok files ↔
      (∀ field ∈ fields, field.Sound) ∧
        (fields.map FormField.demand).sum ≤ reader.limits.left limits ∧
        files = fields.filterMap (FormField.file? reader) := by
  induction fields generalizing limits files with
  | nil =>
      simp only [readFiles, List.map_nil, List.sum_nil, List.filterMap_nil]
      exact ⟨fun read => ⟨by simp, Nat.zero_le _, (Except.ok.inj read).symm⟩,
        fun read => congrArg Except.ok read.2.2.symm⟩
  | cons field rest ih =>
      rw [List.forall_mem_cons, List.map_cons, List.sum_cons]
      cases field with
      | file field =>
          rw [readFiles_file_ok_iff]
          constructor
          · rintro ⟨file, tail, read, later, rfl⟩
            obtain ⟨sound, -, made⟩ := (readField_eq_ok_iff reader client field limits file).mp read
            obtain ⟨restSound, fits, tailMade⟩ := (ih _ tail).mp later
            have left := readField_left read
            refine ⟨⟨sound, restSound⟩, ?_, ?_⟩
            · rw [FormField.demand]
              omega
            · rw [made, tailMade]
              rfl
          · rintro ⟨⟨sound, restSound⟩, fits, rfl⟩
            rw [FormField.demand] at fits
            have read := (readField_eq_ok_iff reader client field limits _).mpr
              ⟨sound, by omega, rfl⟩
            have left := readField_left read
            exact ⟨_, _, read, (ih _ _).mpr ⟨restSound, by omega, rfl⟩, rfl⟩
      | other amounts fails =>
          rw [readFiles_other_ok_iff]
          constructor
          · rintro ⟨succeeded, after, consumed, later⟩
            obtain ⟨restSound, fits, made⟩ := (ih after files).mp later
            have spent := Budget.consumeAll_spends consumed
            refine ⟨⟨succeeded, restSound⟩, ?_, made⟩
            rw [FormField.demand]
            omega
          · rintro ⟨⟨succeeded, restSound⟩, fits, made⟩
            rw [FormField.demand] at fits
            obtain ⟨after, consumed⟩ := Option.isSome_iff_exists.mp
              (Budget.consumeAll_isSome_iff.mpr (show amounts.sum ≤ reader.limits.left limits by omega))
            have spent := Budget.consumeAll_spends consumed
            exact ⟨succeeded, after, consumed, (ih after files).mpr ⟨restSound, by omega, made⟩⟩

/-- A form brings the same files, or fails in the same way, however it is cut. -/
theorem readFiles_cut (client : Option IpAddr) {otherLimits : reader.limits.State}
    (alike : List.Forall₂ FormField.Alike fields others)
    (left : reader.limits.left otherLimits = reader.limits.left limits) :
    (readFiles reader client otherLimits others).files =
      (readFiles reader client limits fields).files := by
  induction alike generalizing limits otherLimits with
  | nil => rfl
  | cons first _ ih =>
      cases first with
      | @file field arrivals temp intact otherIntact same =>
          have outcome : (readField reader client { field with arrivals, temp } otherLimits).1 =
              (readField reader client field limits).1 :=
            readField_cut intact otherIntact same left
          cases read : (readField reader client field limits).1 with
          | error error =>
              rw [readFiles_file_error _ _ read, readFiles_file_error _ _ (outcome.trans read)]
          | ok file =>
              rw [readFiles_file _ _ read, readFiles_file _ _ (outcome.trans read)]
              have spent := readField_left read
              have otherSpent := readField_left (outcome.trans read)
              simp only [same] at otherSpent
              exact congrArg (Except.map (file :: ·)) (ih (by omega))
      | @other amounts otherAmounts fails same =>
          have suffices_iff : (reader.limits.consumeAll limits amounts).isSome = true ↔
              amounts.sum ≤ reader.limits.left limits :=
            Budget.consumeAll_isSome_iff
          have otherSuffices_iff : (reader.limits.consumeAll otherLimits otherAmounts).isSome = true ↔
              otherAmounts.sum ≤ reader.limits.left otherLimits :=
            Budget.consumeAll_isSome_iff
          rw [readFiles, readFiles]
          cases consumed : reader.limits.consumeAll limits amounts <;>
            cases otherConsumed : reader.limits.consumeAll otherLimits otherAmounts
          · rfl
          · rw [consumed] at suffices_iff
            rw [otherConsumed] at otherSuffices_iff
            simp at suffices_iff otherSuffices_iff
            omega
          · rw [consumed] at suffices_iff
            rw [otherConsumed] at otherSuffices_iff
            simp at suffices_iff otherSuffices_iff
            omega
          · have spent := Budget.consumeAll_spends consumed
            have otherSpent := Budget.consumeAll_spends otherConsumed
            cases fails with
            | true => rfl
            | false => exact ih (by omega)

def plainReader : FieldReader (List UInt8) where
  limits := .counter
  blake3 := .collecting
  types := ⟨fun _ => ⟨true, [], []⟩, fun _ => [], fun _ => none⟩
  parser := svgParser
  tempDir := "/tmp".toList

/-- Two bytes, sent at once or one by one. -/
def twoBytes (arrivals : List Arrival) : FileField where
  contentType := none
  fileName := some "a.txt".toList
  name := none
  arrivals := arrivals
  temp := ⟨[], nofun⟩
  openFails := false
  flushFails := false
  readable := true

def atOnce : List Arrival := [.chunk [0x61, 0x62] 0 false]

def oneByOne : List Arrival := [.chunk [0x61] 0 false, .chunk [0x62] 1 false]

theorem twoBytes_cut :
    (readFiles plainReader none (2 : Nat) [.file (twoBytes oneByOne)]).files =
      (readFiles plainReader none (2 : Nat) [.file (twoBytes atOnce)]).files :=
  readFiles_cut none
    (.cons (.file (by simp [twoBytes, atOnce, Arrival.Intact])
      (by simp [oneByOne, Arrival.Intact]) rfl) .nil) rfl

theorem chargedBytes_chargesFor (client : Option IpAddr) (chunks : List (List UInt8 × ℚ)) :
    chargedBytes (chargesFor client chunks) ≤ (chunks.flatMap Prod.fst).length := by
  induction chunks with
  | nil => exact Nat.le_refl _
  | cons chunk rest ih =>
      rw [List.flatMap_cons, List.length_append, chargesFor, List.flatMap_cons, chargedBytes,
        List.map_append, List.sum_append]
      have first : ((client.map fun ip => Call.mk ip chunk.1.length chunk.2).toList.map
          Call.bytes).sum ≤ chunk.1.length := by
        cases client <;> simp
      exact Nat.add_le_add first ih

/-- What is charged for a form, whether it is read or not, stays within the limits. -/
theorem chargedBytes_readFiles (client : Option IpAddr) (limits : reader.limits.State)
    (fields : List FormField) :
    chargedBytes (readFiles reader client limits fields).charges ≤ reader.limits.left limits := by
  induction fields generalizing limits with
  | nil => exact Nat.zero_le _
  | cons field rest ih =>
      cases field with
      | file field =>
          obtain ⟨chunks, -, took⟩ := readField_took client field limits
          have charged : chargedBytes (readField reader client field limits).2.charges +
              reader.limits.left (readField reader client field limits).2.limits ≤
              reader.limits.left limits := by
            have bounded := chargedBytes_chargesFor client chunks
            have spent := took.limits
            rw [took.charges]
            simp only [Progress.start, List.nil_append] at spent ⊢
            omega
          cases read : (readField reader client field limits).1 with
          | error error =>
              rw [readFiles_file_error field rest read]
              exact Nat.le_trans (Nat.le_add_right _ _) charged
          | ok file =>
              have later := ih (readField reader client field limits).2.limits
              rw [readFiles_file field rest read]
              simp only [chargedBytes, List.map_append, List.sum_append] at charged later ⊢
              omega
      | other amounts fails =>
          rw [readFiles]
          cases consumed : reader.limits.consumeAll limits amounts with
          | none => exact Nat.zero_le _
          | some after =>
              have spent := Budget.consumeAll_spends consumed
              cases fails with
              | true => exact Nat.zero_le _
              | false => exact Nat.le_trans (ih after) (by omega)

/-- The files of a form that was read within the limits. -/
theorem fileBytes_readFiles (read : (readFiles reader client limits fields).files = .ok files) :
    fileBytes (files.map ReadFile.toHashedTempFile) ≤ reader.limits.left limits := by
  obtain ⟨-, fits, rfl⟩ := (readFiles_eq_ok_iff reader client limits fields files).mp read
  refine Nat.le_trans ?_ fits
  clear read fits
  induction fields with
  | nil => exact Nat.zero_le _
  | cons field rest ih =>
      cases field with
      | file field => exact Nat.add_le_add_left ih _
      | other amounts fails => exact Nat.le_trans ih (Nat.le_add_left _ _)

/-- The form as the upload handler gets it. -/
def beginForm (respond : MultipartError → TextResponse) (outcome : FormOutcome Hash)
    (request : UploadRequest) (idLength : Option Nat) (keepName : Bool) (gates : GateAnswers) :
    QuotaEvent :=
  .begin { request with form := uploadForm respond outcome idLength keepName } gates

/-- A form read under a fresh limit starts an upload that the quota allows for, and no
form, read or not, is charged for more.  File after file, the upload then leaves the store
that the loop of the handler leaves. -/
theorem read_within_totalLimit (env : StoreEnv) (settings : UploadSettings)
    (reader : FieldReader Hash) (client : Option IpAddr) (limits : reader.limits.State)
    (fresh : reader.limits.left limits = totalLimit settings)
    (respond : MultipartError → TextResponse) (fields : List FormField) (request : UploadRequest)
    (idLength : Option Nat) (keepName : Bool) (gates : GateAnswers) (state : QuotaState)
    (idle : state.current = none) :
    (quotaSystem env settings).enabled state
        (beginForm respond (readFiles reader client limits fields) request idLength keepName gates) ∧
      chargedBytes (readFiles reader client limits fields).charges ≤ totalLimit settings ∧
      ∀ upload pairs, ((quotaSystem env settings).next state (beginForm respond
          (readFiles reader client limits fields) request idLength keepName gates)).current =
            some upload → upload.files = pairs.map Prod.fst →
        ((quotaSystem env settings).after state (pairs.reverse.map (fun pair => .file pair.2) ++
          [beginForm respond (readFiles reader client limits fields) request idLength keepName
            gates])).storage = (uploadFiles env settings upload pairs [] state.storage).2 := by
  refine ⟨⟨idle, ?_⟩, fresh ▸ chargedBytes_readFiles client limits fields, ?_⟩
  · intro form parsed
    simp only [uploadForm] at parsed
    split at parsed
    · cases parsed
    · rename_i files read
      cases parsed
      exact fresh ▸ fileBytes_readFiles read
  · intro upload pairs admitted files
    rw [Data.System.after_append]
    exact (after_files_storage admitted files []).trans (by rw [beginForm, next_begin_storage])

def beginTwoBytes : QuotaEvent :=
  beginForm (fun _ => errorPage 400 []) (readFiles plainReader (some visitor) (totalLimit oneADay)
    [.file (twoBytes oneByOne)]) (uploadOf []) none false openGates

theorem twoBytes_within_totalLimit :
    (quotaSystem plainEnv oneADay).enabled (.initial 0) beginTwoBytes ∧
      chargedBytes (readFiles plainReader (some visitor) (totalLimit oneADay)
        [.file (twoBytes oneByOne)]).charges ≤ totalLimit oneADay ∧
      ∃ upload file, ((quotaSystem plainEnv oneADay).next (.initial 0) beginTwoBytes).current =
          some upload ∧ upload.files = [file] ∧ ∀ answers,
        ((quotaSystem plainEnv oneADay).after (.initial 0) [.file answers, beginTwoBytes]).storage =
          (uploadFiles plainEnv oneADay upload [(file, answers)] [] .empty).2 := by
  obtain ⟨enabled, charged, stored⟩ := read_within_totalLimit plainEnv oneADay plainReader
    (some visitor) (totalLimit oneADay) rfl (fun _ => errorPage 400 []) [.file (twoBytes oneByOne)]
    (uploadOf []) none false openGates (.initial 0) rfl
  exact ⟨enabled, charged, _, _, rfl, rfl, fun answers => stored _ [(_, answers)] rfl rfl⟩

end Filehost.Upload
