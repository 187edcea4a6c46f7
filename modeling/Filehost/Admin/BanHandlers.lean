import Filehost.Database.Bans
import Filehost.Ip.Text

namespace Filehost.Admin

open Filehost.Database Filehost.Ip

/-! # The handlers that change bans

Each reads its request, then runs one statement.  The task that acts on a virus
scan runs one too. -/

def hexDigit (char : Char) : Option Nat :=
  if '0' ≤ char ∧ char ≤ '9' then some (char.toNat - '0'.toNat)
  else if 'a' ≤ char ∧ char ≤ 'f' then some (char.toNat - 'a'.toNat + 10)
  else if 'A' ≤ char ∧ char ≤ 'F' then some (char.toNat - 'A'.toNat + 10)
  else none

/-- `u8::from_str_radix(.., 16)` of two characters; a leading plus is a sign. -/
def hexPair (first second : Char) : Option UInt8 := do
  let low ← hexDigit second
  if first = '+' then return UInt8.ofNat low
  let high ← hexDigit first
  return UInt8.ofNat (16 * high + low)

def hexDecode : List Char → Option (List UInt8)
  | [] => some []
  | [_] => none
  | first :: second :: rest => do
      let byte ← hexPair first second
      let bytes ← hexDecode rest
      return byte :: bytes

structure JsonError where
  status : Nat
  error : List Char

def badRequest (message : String) : JsonError := ⟨400, message.toList⟩

def notFound : JsonError := ⟨404, "Not found".toList⟩

structure BannedIpRangeCreate where
  startIp : List Char
  endIp : List Char
  reason : Option (List Char)
  expiresTimestamp : Option (List Char)
  blacklistId : Option Int
  type : Nat

/-- Parsers the handlers use: `Regex::new`, answering the text of its error,
`parse_rfc3339`, and `str::to_lowercase`. -/
structure RequestText where
  regexError : List Char → Option (List Char)
  parseRfc3339 : List Char → Option Int
  toLowercase : List Char → List Char

inductive BanHandler where
  | addBannedIp (body : BannedIpRangeCreate)
  | removeBannedIp (id : Int)
  | addBannedFilename (pattern : List Char) (reason : Option (List Char))
  | removeBannedFilename (pattern : List Char)
  | addBannedMime (mime : List Char)
  | removeBannedMime (mime : List Char)
  | addBannedHash (hash : List Char) (reason : Option (List Char))
  | removeBannedHash (hash : List Char)
  | addBannedUserAgent (pattern : List Char) (reason : Option (List Char))
  | removeBannedUserAgent (pattern : List Char)
  | spawnClamdScan (hash : List UInt8) (name : List Char)

variable (text : RequestText) (collation : Collation)

def addBannedIp (body : BannedIpRangeCreate) (tables : BanTables) : Except JsonError BanTables :=
  match parseIpAddr body.startIp, parseIpAddr body.endIp with
  | none, _ => .error (badRequest "Invalid start_ip")
  | some _, none => .error (badRequest "Invalid end_ip")
  | some startIp, some endIp =>
      if !sameFamily startIp endIp then
        .error (badRequest "start_ip and end_ip must be the same IP version")
      else
        let insert (expires : Option Int) (banType : BanType) :=
          tables.insertBannedIp startIp endIp body.reason expires body.blacklistId banType
        match body.expiresTimestamp.map text.parseRfc3339, body.type with
        | some none, _ => .error (badRequest "Invalid expires_timestamp")
        | expires, 0 | expires, 1 => .ok (insert expires.join .readOnly)
        | expires, 2 => .ok (insert expires.join .full)
        | _, _ => .error (badRequest "Invalid type (expected 1 or 2)")

def respondRemoved (remaining : Option BanTables) : Except JsonError BanTables :=
  match remaining with
  | some tables => .ok tables
  | none => .error notFound

def addBannedHash (hash : List Char) (reason : Option (List Char)) (tables : BanTables) :
    Except JsonError BanTables :=
  match hexDecode hash with
  | none => .error (badRequest "Invalid hash (expected lowercase hex)")
  | some bytes =>
      if bytes.length ≠ 32 then
        .error (badRequest "Invalid hash length (expected 32-byte BLAKE3)")
      else .ok (tables.insertBannedHash bytes reason)

def removeBannedHash (hash : List Char) (tables : BanTables) : Except JsonError BanTables :=
  match hexDecode hash with
  | none => .error (badRequest "Invalid hash (expected lowercase hex)")
  | some bytes => respondRemoved (tables.deleteBannedHash bytes)

/-- The tables a handler leaves, or the error it responds with.  An error of
the database itself is not among these: such a handler gives up. -/
def runBanHandler (tables : BanTables) : BanHandler → Except JsonError BanTables
  | .addBannedIp body => addBannedIp text body tables
  | .removeBannedIp id => respondRemoved (tables.deleteBannedIp id)
  | .addBannedFilename pattern reason =>
      match text.regexError pattern with
      | some error => .error ⟨400, "Invalid regex: ".toList ++ error⟩
      | none => .ok (tables.insertBannedFilename collation pattern reason)
  | .removeBannedFilename pattern => respondRemoved (tables.deleteBannedFilename collation pattern)
  | .addBannedMime mime => .ok (tables.insertBannedMime collation (text.toLowercase mime))
  | .removeBannedMime mime =>
      respondRemoved (tables.deleteBannedMime collation (text.toLowercase mime))
  | .addBannedHash hash reason => addBannedHash hash reason tables
  | .removeBannedHash hash => removeBannedHash hash tables
  | .addBannedUserAgent pattern reason => .ok (tables.insertBannedUserAgent collation pattern reason)
  | .removeBannedUserAgent pattern =>
      respondRemoved (tables.deleteBannedUserAgent collation pattern)
  | .spawnClamdScan hash name =>
      .ok (tables.insertBannedHash hash (some ("clamd: ".toList ++ name)))

/-- What `add_banned_ip` accepts, and the row it then inserts. -/
theorem addBannedIp_eq_ok_iff {text : RequestText} {body : BannedIpRangeCreate}
    {tables after : BanTables} :
    addBannedIp text body tables = .ok after ↔
      ∃ startIp endIp banType, parseIpAddr body.startIp = some startIp ∧
        parseIpAddr body.endIp = some endIp ∧ sameFamily startIp endIp = true ∧
        body.expiresTimestamp.map text.parseRfc3339 ≠ some none ∧
        ((body.type = 0 ∨ body.type = 1) ∧ banType = .readOnly ∨
          body.type = 2 ∧ banType = .full) ∧
        after = tables.insertBannedIp startIp endIp body.reason
          (body.expiresTimestamp.map text.parseRfc3339).join body.blacklistId banType := by
  constructor
  · intro added
    unfold addBannedIp at added
    split at added
    · contradiction
    · contradiction
    · rename_i startIp endIp startParsed endParsed
      split at added
      · contradiction
      · rename_i family
        have related : sameFamily startIp endIp = true := by simpa using family
        split at added
        · contradiction
        · rename_i code expiry
          cases added
          exact ⟨startIp, endIp, .readOnly, startParsed, endParsed, related, expiry,
            .inl ⟨.inl code, rfl⟩, rfl⟩
        · rename_i code expiry
          cases added
          exact ⟨startIp, endIp, .readOnly, startParsed, endParsed, related, expiry,
            .inl ⟨.inr code, rfl⟩, rfl⟩
        · rename_i code expiry
          cases added
          exact ⟨startIp, endIp, .full, startParsed, endParsed, related, expiry,
            .inr ⟨code, rfl⟩, rfl⟩
        · contradiction
  · rintro ⟨startIp, endIp, banType, startParsed, endParsed, related, expiry, typed, rfl⟩
    rcases typed with ⟨zero | one, rfl⟩ | ⟨two, rfl⟩
    · simp [addBannedIp, startParsed, endParsed, related, zero]
    · simp [addBannedIp, startParsed, endParsed, related, one]
    · simp [addBannedIp, startParsed, endParsed, related, two]

theorem respondRemoved_eq_ok {remaining : Option BanTables} {after : BanTables}
    (responded : respondRemoved remaining = .ok after) : remaining = some after := by
  cases remaining with
  | none => contradiction
  | some removed =>
      cases responded
      rfl

theorem addBannedHash_eq_ok {hash : List Char} {reason : Option (List Char)}
    {tables after : BanTables} (added : addBannedHash hash reason tables = .ok after) :
    ∃ bytes, after = tables.insertBannedHash bytes reason := by
  unfold addBannedHash at added
  split at added
  · contradiction
  · split at added
    · contradiction
    · cases added
      exact ⟨_, rfl⟩

theorem removeBannedHash_eq_ok {hash : List Char} {tables after : BanTables}
    (removed : removeBannedHash hash tables = .ok after) :
    ∃ bytes, tables.deleteBannedHash bytes = some after := by
  unfold removeBannedHash at removed
  split at removed
  · contradiction
  · exact ⟨_, respondRemoved_eq_ok removed⟩

def BanHandler.changes : BanHandler → BanKind
  | .addBannedIp _ | .removeBannedIp _ => .ip
  | .addBannedFilename _ _ | .removeBannedFilename _ => .filename
  | .addBannedMime _ | .removeBannedMime _ => .mime
  | .addBannedHash _ _ | .removeBannedHash _ | .spawnClamdScan _ _ => .hash
  | .addBannedUserAgent _ _ | .removeBannedUserAgent _ => .userAgent

def BanHandler.invalidates : BanHandler → BanKind
  | .addBannedIp _ => .ip
  | .removeBannedIp _ => .ip
  | .addBannedFilename _ _ => .filename
  | .removeBannedFilename _ => .filename
  | .addBannedMime _ => .mime
  | .removeBannedMime _ => .mime
  | .addBannedHash _ _ => .hash
  | .removeBannedHash _ => .hash
  | .addBannedUserAgent _ _ => .userAgent
  | .removeBannedUserAgent _ => .userAgent
  | .spawnClamdScan _ _ => .hash

theorem BanHandler.invalidates_eq_changes (handler : BanHandler) :
    handler.invalidates = handler.changes := by
  cases handler <;> rfl

end Filehost.Admin
