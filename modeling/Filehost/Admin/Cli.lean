import Filehost.Admin.BanHandlers
import Filehost.Blacklist.Rounds

namespace Filehost.Admin

open Filehost.Blacklist Filehost.Data Filehost.Database Filehost.Ip

/-! # Bans and blacklists from the command line -/

/-- A command ends in a message of its own or in an error of the database. -/
inductive CliError where
  | message (text : List Char)
  | database

def parseBanType : Nat → Except CliError BanType
  | 1 => .ok .readOnly
  | 2 => .ok .full
  | _ => .error (.message "type must be 1 (readonly) or 2 (full)".toList)

def removalResult {Tables : Type} (remaining : Option Tables) (error : List Char) :
    Except CliError Tables :=
  match remaining with
  | some tables => .ok tables
  | none => .error (.message error)

def addBlacklist (url : List Char) (code interval : Nat) (tables : BlacklistTables) :
    Except CliError BlacklistTables :=
  match parseBanType code with
  | .error error => .error error
  | .ok banType =>
      match tables.insertBlacklist url banType interval with
      | some after => .ok after
      | none => .error .database

def removeBlacklist (id : Int) (tables : BlacklistTables) : Except CliError BlacklistTables :=
  removalResult (tables.deleteBlacklist id)
    ("No entry with id ".toList ++ (toString id).toList ++ ['.'])

structure BanIpAdd where
  start : IpAddr
  stop : IpAddr
  reason : Option (List Char)
  expires : Option (List Char)
  type : Nat

def banIpAdd (text : RequestText) (arguments : BanIpAdd) (tables : BanTables) :
    Except CliError BanTables :=
  if !sameFamily arguments.start arguments.stop then
    .error (.message "start and end must be the same IP version".toList)
  else
    match parseBanType arguments.type, arguments.expires.map text.parseRfc3339 with
    | .error error, _ => .error error
    | .ok _, some none => .error (.message "Invalid --expires timestamp".toList)
    | .ok banType, expires =>
        .ok (tables.insertBannedIp arguments.start arguments.stop arguments.reason expires.join
          none banType)

def banIpRemove (id : Int) (tables : BanTables) : Except CliError BanTables :=
  removalResult (tables.deleteBannedIp id)
    ("No banned IP range with id ".toList ++ (toString id).toList ++ ['.'])

theorem removalResult_eq_ok {Tables : Type} {remaining : Option Tables} {error : List Char}
    {after : Tables} (removed : removalResult remaining error = .ok after) :
    remaining = some after := by
  cases remaining with
  | none => contradiction
  | some tables =>
      cases removed
      rfl

theorem addBlacklist_eq_ok {url : List Char} {code interval : Nat} {tables after : BlacklistTables}
    (added : addBlacklist url code interval tables = .ok after) :
    after.bans = tables.bans ∧ ∃ list, after.lists = tables.lists ++ [list] := by
  unfold addBlacklist at added
  split at added
  · contradiction
  · split at added
    · rename_i inserted
      cases added
      unfold BlacklistTables.insertBlacklist at inserted
      split at inserted
      · cases inserted
        exact ⟨rfl, _, rfl⟩
      · contradiction
    · contradiction

theorem banIpAdd_eq_ok {text : RequestText} {arguments : BanIpAdd} {tables after : BanTables}
    (added : banIpAdd text arguments tables = .ok after) :
    sameFamily arguments.start arguments.stop = true ∧
      ∃ banType, parseBanType arguments.type = .ok banType ∧
        after = tables.insertBannedIp arguments.start arguments.stop arguments.reason
          (arguments.expires.map text.parseRfc3339).join none banType := by
  unfold banIpAdd at added
  split at added
  · contradiction
  · rename_i family
    split at added
    · contradiction
    · contradiction
    · rename_i parsed _
      cases added
      exact ⟨by simpa using family, _, parsed, rfl⟩

/-- Parsers that find no fault and read no time. -/
def silentText : RequestText := ⟨fun _ => none, fun _ => none, fun text => text⟩

end Filehost.Admin
