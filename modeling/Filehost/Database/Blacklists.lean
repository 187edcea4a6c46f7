import Filehost.Database.Bans

namespace Filehost.Database

open Filehost.Ip

/-! # The table of blacklists

No foreign key ties the imported ranges to it. -/

structure Blacklist where
  id : Int
  url : List Char
  type : BanType
  lastUpdate : Option Int
  updateIntervalSeconds : Nat

structure BlacklistTables where
  bans : BanTables
  lists : List Blacklist
  nextListId : Int

namespace BlacklistTables

def empty : BlacklistTables := ⟨⟨[], 1, [], [], [], []⟩, [], 1⟩

def getBlacklistById (tables : BlacklistTables) (id : Int) : Option Blacklist :=
  tables.lists.find? fun list => list.id = id

def insertBlacklist (tables : BlacklistTables) (url : List Char) (banType : BanType)
    (updateIntervalSeconds : Nat) : Option BlacklistTables :=
  if fitsVarchar 255 url then
    some { tables with
      lists := tables.lists ++ [⟨tables.nextListId, url, banType, none, updateIntervalSeconds⟩]
      nextListId := tables.nextListId + 1 }
  else none

def deleteBlacklist (tables : BlacklistTables) (id : Int) : Option BlacklistTables :=
  (deleteWhere (fun list => list.id == id) tables.lists).map fun lists => { tables with lists }

/-- `DELETE FROM banned_ip_ranges WHERE blacklist_id = ?`. -/
def deleteBannedIpsByBlacklist (tables : BlacklistTables) (id : Int) : BlacklistTables :=
  { tables with bans := { tables.bans with
      ipRanges := tables.bans.ipRanges.filter fun row => row.blacklistId ≠ some id } }

def insertBannedIp (tables : BlacklistTables) (startIp endIp : IpAddr)
    (reason : Option (List Char)) (expiresTimestamp : Option Int) (blacklistId : Option Int)
    (banType : BanType) : BlacklistTables :=
  { tables with
    bans := tables.bans.insertBannedIp startIp endIp reason expiresTimestamp blacklistId banType }

/-- `UPDATE blacklist SET last_update = NOW() WHERE id = ?`. -/
def setLastUpdate (tables : BlacklistTables) (id now : Int) : BlacklistTables :=
  { tables with
    lists := tables.lists.map fun list =>
      if list.id = id then { list with lastUpdate := some now } else list }

/-- The ranges a blacklist has brought in. -/
def importedRows (tables : BlacklistTables) (id : Int) : List BannedIpRange :=
  tables.bans.ipRanges.filter fun row => row.blacklistId = some id

def otherRows (tables : BlacklistTables) (id : Int) : List BannedIpRange :=
  tables.bans.ipRanges.filter fun row => row.blacklistId ≠ some id

variable (tables : BlacklistTables) (startIp endIp : IpAddr) (reason : Option (List Char))
  (expiresTimestamp : Option Int) (banType : BanType) (id other now : Int)

@[simp]
theorem importedRows_deleteBannedIps :
    (tables.deleteBannedIpsByBlacklist id).importedRows id = [] := by
  simp [importedRows, deleteBannedIpsByBlacklist, List.filter_filter]

@[simp]
theorem otherRows_deleteBannedIps :
    (tables.deleteBannedIpsByBlacklist id).otherRows id = tables.otherRows id := by
  simp [otherRows, deleteBannedIpsByBlacklist, List.filter_filter]

theorem importedRows_deleteBannedIps_of_ne {id other : Int} (different : other ≠ id) :
    (tables.deleteBannedIpsByBlacklist id).importedRows other = tables.importedRows other := by
  simp only [importedRows, deleteBannedIpsByBlacklist, List.filter_filter]
  apply List.filter_congr
  intro row _
  by_cases imported : row.blacklistId = some other
  · simp [imported, different]
  · simp [imported]

theorem importedRows_insertBannedIp :
    (tables.insertBannedIp startIp endIp reason expiresTimestamp (some id) banType).importedRows id =
      tables.importedRows id ++ [⟨tables.bans.nextRangeId, toDbBytes startIp, toDbBytes endIp,
        reason, expiresTimestamp, some id, banType⟩] := by
  simp [importedRows, insertBannedIp, BanTables.insertBannedIp]

theorem otherRows_insertBannedIp :
    (tables.insertBannedIp startIp endIp reason expiresTimestamp (some id) banType).otherRows id =
      tables.otherRows id := by
  simp [otherRows, insertBannedIp, BanTables.insertBannedIp]

theorem importedRows_insertBannedIp_of_ne {id other : Int} (different : other ≠ id) :
    (tables.insertBannedIp startIp endIp reason expiresTimestamp (some id) banType).importedRows
      other = tables.importedRows other := by
  simp [importedRows, insertBannedIp, BanTables.insertBannedIp, different.symm]

theorem getBlacklistById_setLastUpdate :
    (tables.setLastUpdate id now).getBlacklistById other =
      (tables.getBlacklistById other).map fun list =>
        if list.id = id then { list with lastUpdate := some now } else list := by
  simp only [getBlacklistById, setLastUpdate, List.find?_map]
  congr 2
  funext list
  dsimp only [Function.comp]
  split <;> rfl

end BlacklistTables

end Filehost.Database
