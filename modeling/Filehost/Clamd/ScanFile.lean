import Filehost.Data.Fields
import Filehost.Data.LengthPrefixed
import Filehost.Data.Utf8Lossy
import Filehost.Ip.ClientIp

namespace Filehost.Clamd

open Filehost.Data

/-! # Scanning a file

The file goes to clamd over one connection, which may close at any time, and clamd's answer
is read from the same connection. -/

/-- Every kind that the scan does not tell apart is `other`. -/
inductive ErrorKind where
  | brokenPipe
  | connectionReset
  | other
  deriving DecidableEq

structure IoError where
  kind : ErrorKind
  message : List Char
  deriving DecidableEq

def isConnectionClosed (e : IoError) : Bool :=
  match e.kind with
  | .brokenPipe | .connectionReset => true
  | .other => false

inductive ScanResult where
  | clean
  | infected (name : List Char)
  deriving DecidableEq

/-- `reported` has the response as its text, `unexpected` quotes it behind
`unexpected clamd response: `. -/
inductive ScanError where
  | io (e : IoError)
  | reported (response : List Char)
  | unexpected (response : List Char)
  deriving DecidableEq

/-! ## Writes -/

inductive Part where
  | command
  | length
  | chunk
  | terminator
  deriving DecidableEq

/-- One `write_all`: a failing one has still sent some of its bytes. -/
structure Write where
  part : Part
  bytes : List UInt8
  failure : Option (Nat × IoError)
  deriving DecidableEq

def Write.sent (write : Write) : List UInt8 :=
  match write.failure with
  | none => write.bytes
  | some (accepted, _) => write.bytes.take accepted

def sentOf (log : List Write) : List UInt8 := log.flatMap Write.sent

/-- What clamd does: which write fails and how, and the reads it answers, up to the end of
the stream. -/
structure Connection where
  failure : Nat → Option (Nat × IoError)
  response : List (Except IoError UInt8)

def writeAll (conn : Connection) (part : Part) (bytes : List UInt8) (log : List Write) :
    Except IoError Unit × List Write :=
  let failure := conn.failure log.length
  (match failure with
    | none => .ok ()
    | some (_, e) => .error e,
    log ++ [⟨part, bytes, failure⟩])

/-! ## Streaming -/

inductive Flow where
  | next
  | breakStream
  deriving DecidableEq

def writeChunks (conn : Connection) :
    List (Part × List UInt8) → List Write → Except IoError Flow × List Write
  | [], log => (.ok .next, log)
  | (part, bytes) :: chunks, log =>
      match writeAll conn part bytes log with
      | (.ok (), log) => writeChunks conn chunks log
      | (.error e, log) =>
          if isConnectionClosed e then (.ok .breakStream, log) else (.error e, log)

/-- A read yields a length that fits in a `u32`, the size of the buffer being 8192. -/
def chunksOf (buf : List UInt8) : List (Part × List UInt8) :=
  [(.length, BigEndian.encode 4 buf.length), (.chunk, buf)]

/-- The outcomes of reading the file, in order; an empty one is its end. -/
def streamFile (conn : Connection) :
    List (Except IoError (List UInt8)) → List Write → Except IoError Unit × List Write
  | [], log => (.ok (), log)
  | .error e :: _, log => (.error e, log)
  | .ok buf :: reads, log =>
      if buf.isEmpty then (.ok (), log)
      else
        match writeChunks conn (chunksOf buf) log with
        | (.ok .next, log) => streamFile conn reads log
        | (.ok .breakStream, log) => (.ok (), log)
        | (.error e, log) => (.error e, log)

/-! ## The response -/

def readResponse : List (Except IoError UInt8) → Except IoError (List UInt8)
  | [] => .ok []
  | .ok byte :: reads =>
      if byte = 0 ∨ byte = 0x0A then .ok []
      else (readResponse reads).map (byte :: ·)
  | .error e :: _ => if isConnectionClosed e then .ok [] else .error e

def interpret (response : List UInt8) : Except ScanError ScanResult :=
  let response := Fields.trim Ip.isWhitespace (Utf8Lossy.decode response)
  if response = "stream: OK".toList then .ok .clean
  else
    match ("stream: ".toList.isPrefixOf? response).bind " FOUND".toList.isSuffixOf? with
    | some name => .ok (.infected name)
    | none =>
        if " ERROR".toList.isSuffixOf response then .error (.reported response)
        else .error (.unexpected response)

def answer (response : List (Except IoError UInt8)) : Except ScanError ScanResult :=
  match readResponse response with
  | .ok response => interpret response
  | .error e => .error (.io e)

/-! ## The scan -/

def zInstream : List UInt8 := [0x7A, 0x49, 0x4E, 0x53, 0x54, 0x52, 0x45, 0x41, 0x4D, 0]

/-- `connected` and `opened` are what connecting and opening the file give.  Errors of the
last write are ignored; the flush behind it sends nothing that was not written. -/
def scanFile (connected : Except IoError Connection)
    (opened : Except IoError (List (Except IoError (List UInt8)))) :
    Except ScanError ScanResult × List Write :=
  match connected with
  | .error e => (.error (.io e), [])
  | .ok conn =>
      match writeAll conn .command zInstream [] with
      | (.error e, log) => (.error (.io e), log)
      | (.ok (), log) =>
          match opened with
          | .error e => (.error (.io e), log)
          | .ok reads =>
              match streamFile conn reads log with
              | (.error e, log) => (.error (.io e), log)
              | (.ok (), log) =>
                  (answer conn.response, (writeAll conn .terminator [0, 0, 0, 0] log).2)

end Filehost.Clamd
