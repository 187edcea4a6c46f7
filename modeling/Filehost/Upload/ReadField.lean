import Filehost.Data.Streams
import Filehost.RateLimit.Rotation
import Filehost.Upload.Detection

namespace Filehost.Upload

open Filehost.Data.Streams Filehost.Ip Filehost.RateLimit

/-! # Reading a file

A file is written, hashed, counted and charged chunk by chunk as it arrives. -/

/-- `limits` are the limits of a form, `blake3` the hasher. -/
structure FieldReader (Hash : Type) where
  limits : Budget
  blake3 : Digest Hash
  types : FileTypes
  parser : MimeParser
  tempDir : List Char

/-- What a field's stream brings next, and whether it can be written. -/
inductive Arrival where
  | chunk (bytes : List UInt8) (now : ℚ) (writeFails : Bool)
  | broken

/-- A field of files: its headers, its stream, and the calls that may fail. -/
structure FileField where
  contentType : Option Mime
  fileName : Option (List Char)
  name : Option (List Char)
  arrivals : List Arrival
  temp : TempName
  openFails : Bool
  flushFails : Bool
  readable : Bool

inductive MultipartError where
  | payload
  | overflow
  | field (name : List Char)
deriving DecidableEq

/-- The file with what was counted and hashed on its way. -/
structure ReadFile (Hash : Type) extends HashedTempFile where
  size : Nat
  hash : Hash

variable {Hash : Type}

structure Progress (reader : FieldReader Hash) where
  limits : reader.limits.State
  charges : List Call
  size : Nat
  hasher : reader.blake3.State
  written : List UInt8

variable {reader : FieldReader Hash}

def Progress.start (limits : reader.limits.State) : Progress reader where
  limits := limits
  charges := []
  size := 0
  hasher := reader.blake3.new
  written := []

/-- A chunk the limits admit.  Without an address nothing is charged. -/
def Progress.take (client : Option IpAddr) (state : Progress reader) (bytes : List UInt8) (now : ℚ)
    (limits : reader.limits.State) : Progress reader where
  limits := limits
  charges := state.charges ++ (client.map fun ip => Call.mk ip bytes.length now).toList
  size := state.size + bytes.length
  hasher := reader.blake3.update state.hasher bytes
  written := state.written ++ bytes

def readChunks (client : Option IpAddr) (fieldName : List Char) (state : Progress reader) :
    List Arrival → Option MultipartError × Progress reader
  | [] => (none, state)
  | .broken :: _ => (some .payload, state)
  | .chunk bytes now writeFails :: rest =>
      match reader.limits.consume state.limits bytes.length with
      | none => (some .overflow, state)
      | some limits =>
          let after := state.take client bytes now limits
          if writeFails then (some (.field fieldName), after)
          else readChunks client fieldName after rest

def FileField.fieldName (field : FileField) : List Char := field.name.getD "file".toList

def FileField.path (reader : FieldReader Hash) (field : FileField) : List Char :=
  makeTempfile reader.tempDir field.temp
    ((field.fileName.bind extension).map fun ext => '.' :: ext)

def readField (reader : FieldReader Hash) (client : Option IpAddr) (field : FileField)
    (limits : reader.limits.State) : Except MultipartError (ReadFile Hash) × Progress reader :=
  if field.openFails then (.error (.field field.fieldName), .start limits)
  else
    match readChunks client field.fieldName (.start limits) field.arrivals with
    | (some error, state) => (.error error, state)
    | (none, state) =>
        if field.flushFails then (.error (.field field.fieldName), state)
        else
          (.ok {
            content := state.written
            contentType := field.contentType
            detectedContentType := detectContentType reader.types reader.parser field.readable
              (field.path reader) state.written
            fileName := field.fileName
            size := state.size
            hash := reader.blake3.finalize state.hasher }, state)

/-! ## One field -/

section Field

variable {client : Option IpAddr} {fieldName : List Char} {field other : FileField}
  {limits : reader.limits.State} {start state : Progress reader} {arrivals : List Arrival}

def Arrival.bytes? : Arrival → Option (List UInt8 × ℚ)
  | .chunk bytes now _ => some (bytes, now)
  | .broken => none

/-- It arrives and can be written. -/
def Arrival.Intact : Arrival → Prop
  | .chunk _ _ writeFails => writeFails = false
  | .broken => False

def received (arrivals : List Arrival) : List UInt8 :=
  (arrivals.filterMap Arrival.bytes?).flatMap Prod.fst

def chargesFor (client : Option IpAddr) (chunks : List (List UInt8 × ℚ)) : List Call :=
  chunks.flatMap fun chunk => (client.map fun ip => Call.mk ip chunk.1.length chunk.2).toList

/-- From `start` to `state` these chunks were taken, and everything was done for each. -/
structure Took (client : Option IpAddr) (start state : Progress reader)
    (chunks : List (List UInt8 × ℚ)) : Prop where
  limits : reader.limits.left state.limits + (chunks.flatMap Prod.fst).length =
    reader.limits.left start.limits
  charges : state.charges = start.charges ++ chargesFor client chunks
  size : state.size = start.size + (chunks.flatMap Prod.fst).length
  hasher : state.hasher = (chunks.map Prod.fst).foldl reader.blake3.update start.hasher
  written : state.written = start.written ++ chunks.flatMap Prod.fst

theorem Took.refl : Took client start start [] where
  limits := rfl
  charges := (List.append_nil _).symm
  size := rfl
  hasher := rfl
  written := (List.append_nil _).symm

/-- One chunk more. -/
theorem Took.cons {bytes : List UInt8} {now : ℚ} {spent : reader.limits.State}
    {chunks : List (List UInt8 × ℚ)}
    (consumed : reader.limits.consume start.limits bytes.length = some spent)
    (took : Took client (start.take client bytes now spent) state chunks) :
    Took client start state ((bytes, now) :: chunks) where
  limits := by
    have first := reader.limits.spends _ _ _ consumed
    have later := took.limits
    simp only [Progress.take] at later
    simp only [List.flatMap_cons, List.length_append]
    omega
  charges := by
    rw [took.charges, chargesFor, chargesFor, List.flatMap_cons, ← List.append_assoc]
    rfl
  size := by
    have later := took.size
    simp only [Progress.take] at later
    simp only [List.flatMap_cons, List.length_append]
    omega
  hasher := took.hasher
  written := by
    rw [took.written, List.flatMap_cons, ← List.append_assoc]
    rfl

/-- Whatever the stream does, what was taken is a first part of what it brought. -/
theorem readChunks_took (client : Option IpAddr) (fieldName : List Char) (start : Progress reader)
    (arrivals : List Arrival) :
    ∃ chunks, chunks <+: arrivals.filterMap Arrival.bytes? ∧
      Took client start (readChunks client fieldName start arrivals).2 chunks := by
  induction arrivals generalizing start with
  | nil => exact ⟨[], List.nil_prefix, .refl⟩
  | cons arrival rest ih =>
      cases arrival with
      | broken => exact ⟨[], List.nil_prefix, .refl⟩
      | chunk bytes now writeFails =>
          rw [readChunks]
          cases consumed : reader.limits.consume start.limits bytes.length with
          | none => exact ⟨[], List.nil_prefix, .refl⟩
          | some spent =>
              cases writeFails with
              | true => exact ⟨[(bytes, now)], by simp [Arrival.bytes?], Took.cons consumed .refl⟩
              | false =>
                  obtain ⟨chunks, first, took⟩ := ih (start.take client bytes now spent)
                  refine ⟨(bytes, now) :: chunks, ?_, Took.cons consumed took⟩
                  exact (List.prefix_cons_inj (bytes, now)).mpr first

/-- A stream without faults is read to its end unless it exceeds the limits. -/
theorem readChunks_of_intact (intact : ∀ arrival ∈ arrivals, arrival.Intact) :
    (readChunks client fieldName start arrivals).1 =
      if (received arrivals).length ≤ reader.limits.left start.limits then none
      else some .overflow := by
  induction arrivals generalizing start with
  | nil => simp [readChunks, received]
  | cons arrival rest ih =>
      obtain ⟨first, later⟩ := List.forall_mem_cons.mp intact
      cases arrival with
      | broken => cases first
      | chunk bytes now writeFails =>
          cases first
          have whole : (received (.chunk bytes now false :: rest)).length =
              bytes.length + (received rest).length := by
            simp [received, Arrival.bytes?]
          rw [readChunks, whole]
          cases consumed : reader.limits.consume start.limits bytes.length with
          | none =>
              have short := reader.limits.refuses _ _ consumed
              rw [if_neg (by omega)]
          | some spent =>
              have spending := reader.limits.spends _ _ _ consumed
              have same : (received rest).length ≤ reader.limits.left spent ↔
                  bytes.length + (received rest).length ≤ reader.limits.left start.limits := by
                omega
              simp only [Bool.false_eq_true, if_false, ih later, Progress.take, same]

/-- A stream read to its end had no faults, and all of it was taken. -/
theorem readChunks_ended (ended : (readChunks client fieldName start arrivals).1 = none) :
    (∀ arrival ∈ arrivals, arrival.Intact) ∧
      Took client start (readChunks client fieldName start arrivals).2
        (arrivals.filterMap Arrival.bytes?) := by
  induction arrivals generalizing start with
  | nil => exact ⟨by simp, .refl⟩
  | cons arrival rest ih =>
      cases arrival with
      | broken => cases ended
      | chunk bytes now writeFails =>
          rw [readChunks] at ended ⊢
          cases consumed : reader.limits.consume start.limits bytes.length with
          | none =>
              rw [consumed] at ended
              cases ended
          | some spent =>
              rw [consumed] at ended
              cases writeFails with
              | true => cases ended
              | false =>
                  obtain ⟨intact, took⟩ := ih ended
                  exact ⟨List.forall_mem_cons.mpr ⟨rfl, intact⟩, Took.cons consumed took⟩

/-- Its calls succeed, and nothing in its stream fails. -/
structure FileField.Sound (field : FileField) : Prop where
  opened : field.openFails = false
  flushed : field.flushFails = false
  intact : ∀ arrival ∈ field.arrivals, arrival.Intact

/-- What a field is to be read as, from its headers and all its bytes. -/
def FileField.fileOf (reader : FieldReader Hash) (field : FileField) : ReadFile Hash where
  content := received field.arrivals
  contentType := field.contentType
  detectedContentType := detectContentType reader.types reader.parser field.readable
    (field.fileName.getD []) (received field.arrivals)
  fileName := field.fileName
  size := (received field.arrivals).length
  hash := reader.blake3.hash (received field.arrivals)

theorem extension_getD (originalName : Option (List Char)) :
    extension (originalName.getD []) = originalName.bind extension := by
  cases originalName with
  | none => rfl
  | some name => rfl

/-- Whatever comes of a field, the first chunks of its stream were taken. -/
theorem readField_took (client : Option IpAddr) (field : FileField) (limits : reader.limits.State) :
    ∃ chunks, chunks <+: field.arrivals.filterMap Arrival.bytes? ∧
      Took client (.start limits) (readField reader client field limits).2 chunks := by
  obtain ⟨chunks, first, took⟩ :=
    readChunks_took client field.fieldName (Progress.start limits) field.arrivals
  unfold readField
  split
  · exact ⟨[], List.nil_prefix, .refl⟩
  · split
    · rename_i outcome
      exact ⟨chunks, first, by simpa only [outcome] using took⟩
    · rename_i outcome
      split <;> exact ⟨chunks, first, by simpa only [outcome] using took⟩

/-- The file is made from what was taken. -/
theorem Took.file {state : Progress reader}
    (took : Took client (.start limits) state (field.arrivals.filterMap Arrival.bytes?)) :
    ({ content := state.written
       contentType := field.contentType
       detectedContentType := detectContentType reader.types reader.parser field.readable
         (field.path reader) state.written
       fileName := field.fileName
       size := state.size
       hash := reader.blake3.finalize state.hasher } : ReadFile Hash) = field.fileOf reader := by
  have written : state.written = received field.arrivals := took.written
  have size : state.size = (received field.arrivals).length := took.size.trans (Nat.zero_add _)
  have hash : reader.blake3.finalize state.hasher = reader.blake3.hash (received field.arrivals) := by
    rw [took.hasher, received, List.flatMap_def]
    exact reader.blake3.streams _
  have detected : detectContentType reader.types reader.parser field.readable (field.path reader)
      (received field.arrivals) =
      detectContentType reader.types reader.parser field.readable (field.fileName.getD [])
        (received field.arrivals) :=
    detectContentType_congr rfl (.inl ((extension_makeTempfile _ _ _).trans (extension_getD _).symm))
  rw [written, size, hash, detected, FileField.fileOf]

/-- Where the stream does not fail, its bytes alone decide. -/
theorem readField_of_intact (intact : ∀ arrival ∈ field.arrivals, arrival.Intact) :
    (readField reader client field limits).1 =
      if field.openFails then .error (.field field.fieldName)
      else if (received field.arrivals).length ≤ reader.limits.left limits then
        if field.flushFails then .error (.field field.fieldName) else .ok (field.fileOf reader)
      else .error .overflow := by
  have outcome : (readChunks client field.fieldName (.start limits) field.arrivals).1 =
      if (received field.arrivals).length ≤ reader.limits.left limits then none
      else some .overflow :=
    readChunks_of_intact intact
  unfold readField
  by_cases opened : field.openFails = true
  · simp only [opened, if_true]
  · simp only [opened, Bool.false_eq_true, if_false]
    by_cases fits : (received field.arrivals).length ≤ reader.limits.left limits
    · rw [if_pos fits]
      have ended : (readChunks client field.fieldName (.start limits) field.arrivals).1 = none :=
        outcome.trans (if_pos fits)
      have took := (readChunks_ended ended).2
      split
      · rename_i failed
        rw [failed] at ended
        cases ended
      · rename_i read
        rw [read] at took
        split
        · rfl
        · exact congrArg Except.ok took.file
    · rw [if_neg fits]
      have exceeded : (readChunks client field.fieldName (.start limits) field.arrivals).1 =
          some .overflow := outcome.trans (if_neg fits)
      split
      · rename_i failed
        rw [failed] at exceeded
        exact congrArg Except.error (Option.some.inj exceeded)
      · rename_i read
        rw [read] at exceeded
        cases exceeded

/-- A field that was read had a stream without faults, and all of it was taken. -/
theorem took_of_readField {file : ReadFile Hash}
    (read : (readField reader client field limits).1 = .ok file) :
    (∀ arrival ∈ field.arrivals, arrival.Intact) ∧
      Took client (.start limits) (readField reader client field limits).2
        (field.arrivals.filterMap Arrival.bytes?) := by
  unfold readField at read ⊢
  split at read
  · cases read
  · rename_i opened
    rw [if_neg opened]
    split at read
    · cases read
    · rename_i state outcome
      have ended := readChunks_ended (congrArg Prod.fst outcome)
      rw [outcome] at ended
      split at read
      · cases read
      · rename_i flushed
        simpa only [flushed, Bool.false_eq_true, if_false] using ended

/-- A field is read exactly where nothing fails and the limits suffice, and then as
all its bytes. -/
theorem readField_eq_ok_iff (reader : FieldReader Hash) (client : Option IpAddr) (field : FileField)
    (limits : reader.limits.State) (file : ReadFile Hash) :
    (readField reader client field limits).1 = .ok file ↔
      field.Sound ∧ (received field.arrivals).length ≤ reader.limits.left limits ∧
        file = field.fileOf reader := by
  constructor
  · intro read
    have intact := (took_of_readField read).1
    rw [readField_of_intact intact] at read
    split at read
    · cases read
    · rename_i opened
      split at read
      · rename_i fits
        split at read
        · cases read
        · rename_i flushed
          exact ⟨⟨by simpa using opened, by simpa using flushed, intact⟩, fits,
            (Except.ok.inj read).symm⟩
      · cases read
  · rintro ⟨sound, fits, rfl⟩
    rw [readField_of_intact sound.intact, sound.opened, sound.flushed]
    simp [fits]

/-- The same bytes are read alike, however they are cut and wherever they are kept. -/
theorem readField_cut {others : reader.limits.State} {temp : TempName}
    (intact : ∀ arrival ∈ field.arrivals, arrival.Intact)
    (otherIntact : ∀ arrival ∈ arrivals, arrival.Intact)
    (same : received arrivals = received field.arrivals)
    (left : reader.limits.left others = reader.limits.left limits) :
    (readField reader client { field with arrivals, temp } others).1 =
      (readField reader client field limits).1 := by
  have file : ({ field with arrivals, temp } : FileField).fileOf reader = field.fileOf reader := by
    simp only [FileField.fileOf, same]
  rw [readField_of_intact intact, readField_of_intact otherIntact, file, same, left]
  rfl

theorem readField_left {file : ReadFile Hash}
    (read : (readField reader client field limits).1 = .ok file) :
    reader.limits.left (readField reader client field limits).2.limits +
      (received field.arrivals).length = reader.limits.left limits :=
  (took_of_readField read).2.limits

end Field

end Filehost.Upload
