import Filehost.Database.Columns
import Filehost.Ip.Address

namespace Filehost.Database

open Filehost.Ip

/-! # The ban tables -/

inductive BanType where
  | readOnly
  | full
deriving DecidableEq

def BanType.severity : BanType → Nat
  | .readOnly => 1
  | .full => 2

inductive BanKind where
  | ip
  | filename
  | mime
  | hash
  | userAgent
deriving DecidableEq

structure BannedIpRange where
  id : Int
  startIp : List UInt8
  endIp : List UInt8
  reason : Option (List Char)
  expiresTimestamp : Option Int
  blacklistId : Option Int
  type : BanType

structure BannedFilename where
  pattern : List Char
  reason : Option (List Char)

structure BannedFileHash where
  hash : List UInt8
  reason : Option (List Char)

structure BannedUserAgent where
  pattern : List Char
  reason : Option (List Char)

structure BanTables where
  ipRanges : List BannedIpRange
  nextRangeId : Int
  filenames : List BannedFilename
  mimes : List (List Char)
  hashes : List BannedFileHash
  userAgents : List BannedUserAgent

namespace BanTables

def isIpBanned (tables : BanTables) (ip : IpAddr) (banType : BanType) (now : Int) : Bool :=
  tables.ipRanges.any fun range =>
    decide (range.startIp ≤ toDbBytes ip) && decide (toDbBytes ip ≤ range.endIp) &&
      decide (banType.severity ≤ range.type.severity) &&
      range.expiresTimestamp.all fun expires => decide (now < expires)

def insertBannedIp (tables : BanTables) (startIp endIp : IpAddr) (reason : Option (List Char))
    (expiresTimestamp : Option Int) (blacklistId : Option Int) (banType : BanType) : BanTables :=
  { tables with
    ipRanges := tables.ipRanges ++ [⟨tables.nextRangeId, toDbBytes startIp, toDbBytes endIp,
      reason, expiresTimestamp, blacklistId, banType⟩]
    nextRangeId := tables.nextRangeId + 1 }

def deleteBannedIp (tables : BanTables) (id : Int) : Option BanTables :=
  (deleteWhere (fun row => row.id == id) tables.ipRanges).map fun ipRanges =>
    { tables with ipRanges }

variable (collation : Collation)

def insertBannedFilename (tables : BanTables) (pattern : List Char)
    (reason : Option (List Char)) : BanTables :=
  { tables with
    filenames := insertIgnore (fun row => collation.equal row.pattern pattern) ⟨pattern, reason⟩
      tables.filenames }

def deleteBannedFilename (tables : BanTables) (pattern : List Char) : Option BanTables :=
  (deleteWhere (fun row => collation.equal row.pattern pattern) tables.filenames).map
    fun filenames => { tables with filenames }

def insertBannedMime (tables : BanTables) (mime : List Char) : BanTables :=
  { tables with
    mimes := insertIgnore (fun row => collation.equal row (collation.lower mime))
      (collation.lower mime) tables.mimes }

def deleteBannedMime (tables : BanTables) (mime : List Char) : Option BanTables :=
  (deleteWhere (fun row => collation.equal row (collation.lower mime)) tables.mimes).map
    fun mimes => { tables with mimes }

def insertBannedHash (tables : BanTables) (hash : List UInt8) (reason : Option (List Char)) :
    BanTables :=
  { tables with
    hashes := insertIgnore (fun row => row.hash == hash) ⟨hash, reason⟩ tables.hashes }

def deleteBannedHash (tables : BanTables) (hash : List UInt8) : Option BanTables :=
  (deleteWhere (fun row => row.hash == hash) tables.hashes).map fun hashes =>
    { tables with hashes }

def insertBannedUserAgent (tables : BanTables) (pattern : List Char)
    (reason : Option (List Char)) : BanTables :=
  { tables with
    userAgents := insertIgnore (fun row => collation.equal row.pattern pattern)
      ⟨pattern, reason⟩ tables.userAgents }

def deleteBannedUserAgent (tables : BanTables) (pattern : List Char) : Option BanTables :=
  (deleteWhere (fun row => collation.equal row.pattern pattern) tables.userAgents).map
    fun userAgents => { tables with userAgents }

end BanTables

end Filehost.Database
