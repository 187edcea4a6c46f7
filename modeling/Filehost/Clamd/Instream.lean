import Filehost.Clamd.ScanFile

namespace Filehost.Clamd

open Filehost.Data

/-! # What clamd receives

The writes of a scan are those of the framed file up to the first that fails. -/

variable {conn : Connection} {log : List Write} {pieces : List (List UInt8)}

def written (chunk : Part × List UInt8) : Write := ⟨chunk.1, chunk.2, none⟩

theorem sent_written (chunks : List (Part × List UInt8)) :
    sentOf (chunks.map written) = chunks.flatMap Prod.snd :=
  List.flatMap_map _ _ _

/-- How writing chunks ends: with every one of them sent, or with the first failure. -/
inductive Streamed (chunks : List (Part × List UInt8)) :
    Except IoError Flow → List Write → Prop where
  | whole : Streamed chunks (.ok .next) (chunks.map written)
  | stopped (sent : List (Part × List UInt8)) (next : Part × List UInt8)
      (rest : List (Part × List UInt8)) (accepted : Nat) (e : IoError)
      (split : chunks = sent ++ next :: rest) :
      Streamed chunks (if isConnectionClosed e then .ok .breakStream else .error e)
        (sent.map written ++ [⟨next.1, next.2, some (accepted, e)⟩])

theorem Streamed.cons {chunks : List (Part × List UInt8)} {result : Except IoError Flow}
    {writes : List Write} (chunk : Part × List UInt8) (streamed : Streamed chunks result writes) :
    Streamed (chunk :: chunks) result (written chunk :: writes) := by
  cases streamed with
  | whole => exact .whole
  | stopped sent next rest accepted e split =>
      exact .stopped (chunk :: sent) next rest accepted e (congrArg (List.cons chunk) split)

theorem writeChunks_streamed (conn : Connection) (chunks : List (Part × List UInt8))
    (log : List Write) :
    ∃ writes, (writeChunks conn chunks log).2 = log ++ writes ∧
      Streamed chunks (writeChunks conn chunks log).1 writes := by
  induction chunks generalizing log with
  | nil => exact ⟨[], (List.append_nil log).symm, .whole⟩
  | cons chunk chunks ih =>
      obtain ⟨part, bytes⟩ := chunk
      cases failure : conn.failure log.length with
      | none =>
          obtain ⟨writes, logged, streamed⟩ := ih (log ++ [⟨part, bytes, none⟩])
          refine ⟨written (part, bytes) :: writes, ?_, ?_⟩
          · simp only [writeChunks, writeAll, failure, logged, written, List.append_assoc,
              List.singleton_append]
          · simpa only [writeChunks, writeAll, failure] using streamed.cons (part, bytes)
      | some failed =>
          obtain ⟨accepted, e⟩ := failed
          have stopped : Streamed ((part, bytes) :: chunks) _ _ :=
            .stopped [] (part, bytes) chunks accepted e rfl
          refine ⟨[⟨part, bytes, some (accepted, e)⟩], ?_, ?_⟩
          · simp only [writeChunks, writeAll, failure]
            split <;> rfl
          · simp only [writeChunks, writeAll, failure]
            cases closed : isConnectionClosed e with
            | true => simpa [closed] using stopped
            | false => simpa [closed] using stopped

theorem writeChunks_append (chunks more : List (Part × List UInt8)) (log : List Write) :
    writeChunks conn (chunks ++ more) log =
      match writeChunks conn chunks log with
      | (.ok .next, log) => writeChunks conn more log
      | stopped => stopped := by
  induction chunks generalizing log with
  | nil => rfl
  | cons chunk chunks ih =>
      obtain ⟨part, bytes⟩ := chunk
      cases failure : conn.failure log.length with
      | none => simp only [List.cons_append, writeChunks, writeAll, failure, ih]
      | some failed =>
          simp only [List.cons_append, writeChunks, writeAll, failure]
          cases closed : isConnectionClosed failed.2 <;> rfl

theorem streamFile_eq (nonempty : ∀ piece ∈ pieces, piece ≠ []) (log : List Write) :
    streamFile conn (pieces.map .ok) log =
      ((writeChunks conn (pieces.flatMap chunksOf) log).1.map fun _ => (),
        (writeChunks conn (pieces.flatMap chunksOf) log).2) := by
  induction pieces generalizing log with
  | nil => rfl
  | cons piece pieces ih =>
      have filled : piece.isEmpty = false :=
        List.isEmpty_eq_false_iff.mpr (nonempty piece (by simp))
      have rest := ih fun other member => nonempty other (List.mem_cons_of_mem _ member)
      simp only [List.map_cons, List.flatMap_cons, streamFile, filled, writeChunks_append]
      obtain ⟨result, log⟩ := writeChunks conn (chunksOf piece) log
      cases result with
      | error e => rfl
      | ok flow =>
          cases flow with
          | next => exact rest log
          | breakStream => rfl

/-! ## The whole scan -/

def command : Part × List UInt8 := (.command, zInstream)

def Part.failed (chunk : Part × List UInt8) (accepted : Nat) (e : IoError) : Write :=
  ⟨chunk.1, chunk.2, some (accepted, e)⟩

def terminator (last : Option (Nat × IoError)) : Write := ⟨.terminator, [0, 0, 0, 0], last⟩

/-- How a scan ends: at the command, with the whole file written, with the connection closed
under one of the chunks, or with another error there. -/
inductive Scanned (conn : Connection) (chunks : List (Part × List UInt8)) :
    Except ScanError ScanResult → List Write → Prop where
  | refused (accepted : Nat) (e : IoError) :
      Scanned conn chunks (.error (.io e)) [Part.failed command accepted e]
  | whole (last : Option (Nat × IoError)) :
      Scanned conn chunks (answer conn.response)
        (written command :: chunks.map written ++ [terminator last])
  | closed (sent : List (Part × List UInt8)) (next : Part × List UInt8)
      (rest : List (Part × List UInt8)) (accepted : Nat) (e : IoError)
      (last : Option (Nat × IoError)) (split : chunks = sent ++ next :: rest) :
      Scanned conn chunks (answer conn.response)
        (written command :: sent.map written ++ [Part.failed next accepted e, terminator last])
  | failed (sent : List (Part × List UInt8)) (next : Part × List UInt8)
      (rest : List (Part × List UInt8)) (accepted : Nat) (e : IoError)
      (split : chunks = sent ++ next :: rest) (otherwise : isConnectionClosed e = false) :
      Scanned conn chunks (.error (.io e))
        (written command :: sent.map written ++ [Part.failed next accepted e])

theorem scanFile_scanned (conn : Connection) (nonempty : ∀ piece ∈ pieces, piece ≠ []) :
    Scanned conn (pieces.flatMap chunksOf) (scanFile (.ok conn) (.ok (pieces.map .ok))).1
      (scanFile (.ok conn) (.ok (pieces.map .ok))).2 := by
  cases accepted : conn.failure 0 with
  | some failure =>
      simp only [scanFile, writeAll, List.length_nil, accepted, List.nil_append]
      exact .refused failure.1 failure.2
  | none =>
      obtain ⟨writes, logged, streamed⟩ :=
        writeChunks_streamed conn (pieces.flatMap chunksOf) [written command]
      have first : (⟨.command, zInstream, none⟩ : Write) = written command := rfl
      simp only [scanFile, writeAll, List.length_nil, accepted, List.nil_append]
      rw [first, streamFile_eq nonempty, logged]
      generalize (writeChunks conn (pieces.flatMap chunksOf) [written command]).1 = flow
        at streamed ⊢
      cases streamed with
      | whole => exact .whole _
      | stopped sent next rest accepted e split =>
          cases closed : isConnectionClosed e with
          | true =>
              have scanned : ∀ last, Scanned conn (pieces.flatMap chunksOf) _ _ :=
                fun last => .closed sent next rest accepted e last split
              simpa [Except.map, Part.failed, terminator] using scanned _
          | false =>
              have scanned : Scanned conn (pieces.flatMap chunksOf) _ _ :=
                .failed sent next rest accepted e split closed
              simpa [Except.map, Part.failed] using scanned

theorem encode_eq (pieces : List (List UInt8)) :
    LengthPrefixed.encode 4 pieces =
      (pieces.flatMap chunksOf).flatMap Prod.snd ++ [0, 0, 0, 0] := by
  rw [LengthPrefixed.encode, List.flatMap_assoc]
  congr 1
  refine congrArg₂ List.flatMap (funext fun piece => ?_) rfl
  simp [chunksOf, LengthPrefixed.frame]

/-- A write of a length or of a chunk that fails. -/
def Write.Broken (write : Write) : Prop :=
  (write.part = .length ∨ write.part = .chunk) ∧ write.failure ≠ none

theorem split_at_broken {sent before after : List Write} {failed write : Write}
    {last : List Write} (fine : ∀ other ∈ sent, ¬ other.Broken)
    (ends : ∀ other ∈ last, ¬ other.Broken) (broken : write.Broken)
    (same : sent ++ failed :: last = before ++ write :: after) :
    before = sent ∧ write = failed := by
  rcases List.append_eq_append_iff.mp same with ⟨extra, rfl, behind⟩ | ⟨extra, rfl, behind⟩
  · cases extra with
    | nil =>
        obtain ⟨rfl, -⟩ := List.cons.inj behind
        exact ⟨List.append_nil _, rfl⟩
    | cons other extra =>
        obtain ⟨-, rest⟩ := List.cons.inj behind
        exact absurd broken (ends write (by simp [rest]))
  · cases extra with
    | nil =>
        obtain ⟨rfl, -⟩ := List.cons.inj behind
        exact ⟨(List.append_nil _).symm, rfl⟩
    | cons other extra =>
        obtain ⟨rfl, -⟩ := List.cons.inj behind
        exact absurd broken (fine write (by simp))

/-- What was written up to a failure inside the file is a first part of the whole. -/
theorem sent_prefix {sent rest : List (Part × List UInt8)} {next : Part × List UInt8}
    (split : pieces.flatMap chunksOf = sent ++ next :: rest) (accepted : Nat) (e : IoError) :
    sentOf (written command :: sent.map written) <+:
        zInstream ++ LengthPrefixed.encode 4 pieces ∧
      sentOf (written command :: sent.map written ++ [Part.failed next accepted e]) <+:
        zInstream ++ LengthPrefixed.encode 4 pieces := by
  have before : sentOf (written command :: sent.map written) =
      zInstream ++ sent.flatMap Prod.snd :=
    congrArg (zInstream ++ ·) (sent_written sent)
  have behind : sentOf (written command :: sent.map written ++ [Part.failed next accepted e]) =
      zInstream ++ (sent.flatMap Prod.snd ++ next.2.take accepted) := by
    rw [sentOf, List.flatMap_append, ← sentOf, before, List.append_assoc]
    simp [Part.failed, Write.sent]
  have stream : LengthPrefixed.encode 4 pieces = sent.flatMap Prod.snd ++
      (next.2 ++ (rest.flatMap Prod.snd ++ [0, 0, 0, 0])) := by
    rw [encode_eq, split]
    simp
  rw [before, behind, stream]
  refine ⟨List.prefix_append_right_inj _ |>.mpr (List.prefix_append _ _), ?_⟩
  refine List.prefix_append_right_inj _ |>.mpr (List.prefix_append_right_inj _ |>.mpr ?_)
  exact (List.take_prefix _ _).trans (List.prefix_append _ _)

theorem Scanned.sent_whole {result : Except ScanError ScanResult}
    (scanned : Scanned conn (pieces.flatMap chunksOf) result log)
    (fine : ∀ write ∈ log, write.failure = none) :
    sentOf log = zInstream ++ LengthPrefixed.encode 4 pieces := by
  cases scanned with
  | refused accepted e =>
      exact absurd (fine (Part.failed command accepted e) (by simp)) (by simp [Part.failed])
  | whole last =>
      have ended : last = none := fine (terminator last) (by simp)
      rw [encode_eq, ← sent_written]
      simp [sentOf, ended, terminator, written, command, Write.sent]
  | closed sent next rest accepted e last split =>
      exact absurd (fine (Part.failed next accepted e) (by simp)) (by simp [Part.failed])
  | failed sent next rest accepted e split otherwise =>
      exact absurd (fine (Part.failed next accepted e) (by simp)) (by simp [Part.failed])

theorem written_not_broken {sent : List (Part × List UInt8)} :
    ∀ other ∈ written command :: sent.map written, ¬ other.Broken := by
  rintro other member ⟨-, failure⟩
  rcases List.mem_cons.mp member with rfl | member
  · exact failure rfl
  · obtain ⟨chunk, -, rfl⟩ := List.mem_map.mp member
    exact failure rfl

theorem terminator_not_broken (last : Option (Nat × IoError)) :
    ∀ other ∈ [terminator last], ¬ other.Broken := by
  rintro other member ⟨part, -⟩
  obtain rfl := List.mem_singleton.mp member
  simp [terminator] at part

theorem Scanned.closed_under {result : Except ScanError ScanResult}
    {before after : List Write} {write : Write} {accepted : Nat} {e : IoError}
    (scanned : Scanned conn (pieces.flatMap chunksOf) result log)
    (split : log = before ++ write :: after) (broken : write.Broken)
    (failure : write.failure = some (accepted, e)) (closed : isConnectionClosed e = true) :
    sentOf before <+: zInstream ++ LengthPrefixed.encode 4 pieces ∧
      sentOf (before ++ [write]) <+: zInstream ++ LengthPrefixed.encode 4 pieces ∧
        result = answer conn.response := by
  have member : write ∈ log := by simp [split]
  cases scanned with
  | refused accepted e =>
      obtain rfl := List.mem_singleton.mp member
      exact absurd broken.1 (by simp [Part.failed, command])
  | whole last =>
      rcases List.mem_append.mp member with member | member
      · exact absurd broken (written_not_broken write member)
      · exact absurd broken (terminator_not_broken last write member)
  | closed sent next rest accepted e last chunks =>
      obtain ⟨rfl, rfl⟩ :=
        split_at_broken written_not_broken (terminator_not_broken last) broken split
      obtain ⟨first, more⟩ := sent_prefix chunks accepted e
      exact ⟨first, more, rfl⟩
  | failed sent next rest accepted e chunks otherwise =>
      obtain ⟨rfl, rfl⟩ :=
        split_at_broken written_not_broken (by simp) broken split
      obtain ⟨-, rfl⟩ := Prod.mk.inj (Option.some.inj failure)
      rw [otherwise] at closed
      cases closed

/-- clamd receives the file: unless a write fails, the command and a stream that holds exactly
the file's bytes; when the connection closes under a length or a chunk, a first part of that,
and then its response decides. -/
theorem scanFile_sends (conn : Connection) {pieces : List (List UInt8)}
    (sized : ∀ piece ∈ pieces, piece ≠ [] ∧ piece.length ≤ 8192) :
    let (result, log) := scanFile (.ok conn) (.ok (pieces.map .ok))
    let stream := LengthPrefixed.encode 4 pieces
    LengthPrefixed.decode 4 stream = some (pieces.flatten, []) ∧
      ((∀ write ∈ log, write.failure = none) → sentOf log = zInstream ++ stream) ∧
      ∀ before write after, log = before ++ write :: after →
        (write.part = .length ∨ write.part = .chunk) →
        ∀ accepted e, write.failure = some (accepted, e) → isConnectionClosed e = true →
          sentOf before <+: zInstream ++ stream ∧
            sentOf (before ++ [write]) <+: zInstream ++ stream ∧ result = answer conn.response := by
  have fit : ∀ piece ∈ pieces, LengthPrefixed.Fits 4 piece := fun piece member =>
    ⟨(sized piece member).1, lt_of_le_of_lt (sized piece member).2 (by decide)⟩
  have nonempty : ∀ piece ∈ pieces, piece ≠ [] := fun piece member => (sized piece member).1
  have scanned := scanFile_scanned conn nonempty
  refine ⟨LengthPrefixed.decode_encode fit, ?_, ?_⟩
  · exact scanned.sent_whole
  · intro before write after split part accepted e failure closed
    exact scanned.closed_under split ⟨part, by simp [failure]⟩ failure closed

/-- A connection that closes after one byte of the first chunk, behind a verdict. -/
def closingConnection : Connection where
  failure index := if index = 2 then some (1, ⟨.brokenPipe, []⟩) else none
  response := (PercentEncoding.utf8Bytes "stream: Eicar FOUND\x00".toList).map .ok

theorem scanFile_sends_closed :
    LengthPrefixed.decode 4 (LengthPrefixed.encode 4 [[1, 2, 3]]) = some ([1, 2, 3], []) ∧
      sentOf [written command, written (.length, [0, 0, 0, 3])] <+:
        zInstream ++ LengthPrefixed.encode 4 [[1, 2, 3]] ∧
      (scanFile (.ok closingConnection) (.ok [.ok [1, 2, 3]])).1 =
        answer closingConnection.response := by
  have sends := @scanFile_sends closingConnection [[1, 2, 3]] (by decide)
  obtain ⟨first, -, answered⟩ := sends.2.2 [written command, written (.length, [0, 0, 0, 3])]
    (Part.failed (.chunk, [1, 2, 3]) 1 ⟨.brokenPipe, []⟩) [terminator none] (by decide)
    (.inr rfl) 1 ⟨.brokenPipe, []⟩ rfl rfl
  exact ⟨sends.1, first, answered⟩

end Filehost.Clamd
