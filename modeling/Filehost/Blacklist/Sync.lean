import Filehost.Blacklist.Parse
import Filehost.Data.Transition
import Filehost.Database.Blacklists

namespace Filehost.Blacklist

open Filehost.Data Filehost.Database Filehost.Ip

/-! # Synchronising one blacklist

One database statement at a time, none of them in a transaction. -/

/-- `get(url)` and `text()`: an error of the transport, or a response of any
status with its body. -/
inductive FetchAnswer where
  | transportError
  | response (status : Nat) (body : List Char)

def fetchIpRanges (isDigit : Char → Bool) : FetchAnswer → Option (List IpRangeEntry)
  | .transportError => none
  | .response _ body => some (parseBody isDigit body)

/-- Where a call of `sync_blacklist` stands.  `count` entries of the list are
inserted. -/
inductive SyncStage where
  | started
  | found (list : Blacklist)
  | fetched (banType : BanType) (entries : List IpRangeEntry)
  | inserting (banType : BanType) (entries : List IpRangeEntry) (count : Nat)
  | synced (banType : BanType) (entries : List IpRangeEntry) (stampedAt : Int)
  | failed

def SyncStage.finished : SyncStage → Bool
  | .synced _ _ _ | .failed => true
  | _ => false

/-- The next statement or fetch of the call.  A statement that fails leaves the
tables, and ends the call. -/
def syncStep (isDigit : Char → Bool) (answer : FetchAnswer) (id now : Int)
    (tables : BlacklistTables) : SyncStage → SyncStage × BlacklistTables
  | .started =>
      match tables.getBlacklistById id with
      | none => (.failed, tables)
      | some list => (.found list, tables)
  | .found list =>
      match fetchIpRanges isDigit answer with
      | none => (.failed, tables)
      | some entries => (.fetched list.type entries, tables)
  | .fetched banType entries =>
      (.inserting banType entries 0, tables.deleteBannedIpsByBlacklist id)
  | .inserting banType entries count =>
      match entries[count]? with
      | some entry =>
          (.inserting banType entries (count + 1),
            tables.insertBannedIp entry.start entry.stop none none (some id) banType)
      | none => (.synced banType entries now, tables.setLastUpdate id now)
  | .synced banType entries stampedAt => (.synced banType entries stampedAt, tables)
  | .failed => (.failed, tables)

/-- A row without its generated key. -/
structure RangeColumns where
  startIp : List UInt8
  endIp : List UInt8
  reason : Option (List Char)
  expiresTimestamp : Option Int
  blacklistId : Option Int
  type : BanType
deriving DecidableEq

def rowColumns (row : BannedIpRange) : RangeColumns :=
  ⟨row.startIp, row.endIp, row.reason, row.expiresTimestamp, row.blacklistId, row.type⟩

def IpRangeEntry.columns (id : Int) (banType : BanType) (entry : IpRangeEntry) : RangeColumns :=
  ⟨toDbBytes entry.start, toDbBytes entry.stop, none, none, some id, banType⟩

/-- The ranges imported for the blacklist are these. -/
def Imports (id : Int) (banType : BanType) (entries : List IpRangeEntry)
    (tables : BlacklistTables) : Prop :=
  (tables.importedRows id).map rowColumns = entries.map (IpRangeEntry.columns id banType)

variable {isDigit : Char → Bool} {answer : FetchAnswer} {id other now : Int}
  {start tables : BlacklistTables} {stage : SyncStage}

structure Untouched (id : Int) (start tables : BlacklistTables) : Prop where
  rows : tables.importedRows id = start.importedRows id
  list : tables.getBlacklistById id = start.getBlacklistById id

/-- The list as it was fetched, under the type its blacklist had. -/
structure Described (isDigit : Char → Bool) (answer : FetchAnswer) (id : Int)
    (start : BlacklistTables) (banType : BanType) (entries : List IpRangeEntry) : Prop where
  fetched : fetchIpRanges isDigit answer = some entries
  typed : ∃ list, start.getBlacklistById id = some list ∧ list.type = banType

/-- What a call has done to the rows of its blacklist by the time it stands there. -/
def Progress (isDigit : Char → Bool) (answer : FetchAnswer) (id : Int)
    (start tables : BlacklistTables) : SyncStage → Prop
  | .started => Untouched id start tables
  | .found list => Untouched id start tables ∧ start.getBlacklistById id = some list
  | .fetched banType entries =>
      Untouched id start tables ∧ Described isDigit answer id start banType entries
  | .inserting banType entries count =>
      Imports id banType (entries.take count) tables ∧
        tables.getBlacklistById id = start.getBlacklistById id ∧
          Described isDigit answer id start banType entries
  | .synced banType entries stampedAt =>
      Imports id banType entries tables ∧
        tables.getBlacklistById id = (start.setLastUpdate id stampedAt).getBlacklistById id ∧
          Described isDigit answer id start banType entries
  | .failed =>
      Untouched id start tables ∧
        (start.getBlacklistById id = none ∨ fetchIpRanges isDigit answer = none)

theorem Imports.insert {banType : BanType} {entries : List IpRangeEntry} {count : Nat}
    {entry : IpRangeEntry} (imports : Imports id banType (entries.take count) tables)
    (next : entries[count]? = some entry) :
    Imports id banType (entries.take (count + 1))
      (tables.insertBannedIp entry.start entry.stop none none (some id) banType) := by
  unfold Imports at imports ⊢
  rw [BlacklistTables.importedRows_insertBannedIp, List.map_append, imports, List.take_add_one,
    next, List.map_append]
  rfl

theorem getBlacklistById_setLastUpdate_congr
    (same : tables.getBlacklistById id = start.getBlacklistById id) :
    (tables.setLastUpdate id now).getBlacklistById id =
      (start.setLastUpdate id now).getBlacklistById id := by
  rw [BlacklistTables.getBlacklistById_setLastUpdate,
    BlacklistTables.getBlacklistById_setLastUpdate, same]

theorem Progress.step (progress : Progress isDigit answer id start tables stage) :
    Progress isDigit answer id start (syncStep isDigit answer id now tables stage).2
      (syncStep isDigit answer id now tables stage).1 := by
  cases stage with
  | started =>
      have untouched : Untouched id start tables := progress
      cases lookup : tables.getBlacklistById id with
      | none =>
          simp only [syncStep, lookup]
          exact ⟨untouched, .inl (untouched.list ▸ lookup)⟩
      | some list =>
          simp only [syncStep, lookup]
          exact ⟨untouched, untouched.list ▸ lookup⟩
  | found list =>
      obtain ⟨untouched, found⟩ := progress
      cases fetched : fetchIpRanges isDigit answer with
      | none =>
          simp only [syncStep, fetched]
          exact ⟨untouched, .inr fetched⟩
      | some entries =>
          simp only [syncStep, fetched]
          exact ⟨untouched, fetched, list, found, rfl⟩
  | fetched banType entries =>
      obtain ⟨untouched, described⟩ := progress
      refine ⟨?_, untouched.list, described⟩
      simp [syncStep, Imports]
  | inserting banType entries count =>
      obtain ⟨imports, list, described⟩ := progress
      cases next : entries[count]? with
      | some entry =>
          simp only [syncStep, next]
          exact ⟨imports.insert next, list, described⟩
      | none =>
          rw [List.take_of_length_le (List.getElem?_eq_none_iff.mp next)] at imports
          simp only [syncStep, next]
          exact ⟨imports, getBlacklistById_setLastUpdate_congr list, described⟩
  | synced banType entries stampedAt => exact progress
  | failed => exact progress

/-- The statements of a call, as changes of the tables. -/
inductive SyncChange (id now : Int) (tables : BlacklistTables) : BlacklistTables → Prop
  | none : SyncChange id now tables tables
  | delete : SyncChange id now tables (tables.deleteBannedIpsByBlacklist id)
  | insert (entry : IpRangeEntry) (banType : BanType) :
      SyncChange id now tables
        (tables.insertBannedIp entry.start entry.stop .none .none (some id) banType)
  | stamp : SyncChange id now tables (tables.setLastUpdate id now)

variable (isDigit answer id now tables stage) in
theorem syncStep_change :
    SyncChange id now tables (syncStep isDigit answer id now tables stage).2 := by
  cases stage with
  | started =>
      cases lookup : tables.getBlacklistById id <;> simp only [syncStep, lookup] <;> exact .none
  | found list =>
      cases fetched : fetchIpRanges isDigit answer <;> simp only [syncStep, fetched] <;> exact .none
  | fetched banType entries => exact .delete
  | inserting banType entries count =>
      cases next : entries[count]? with
      | some entry =>
          simp only [syncStep, next]
          exact .insert entry banType
      | none =>
          simp only [syncStep, next]
          exact .stamp
  | synced banType entries stampedAt => exact .none
  | failed => exact .none

/-- A call leaves the rows of the other blacklists alone. -/
theorem SyncChange.untouched {after : BlacklistTables} (change : SyncChange id now tables after)
    (different : other ≠ id) : Untouched other tables after := by
  cases change with
  | none => exact ⟨rfl, rfl⟩
  | delete => exact ⟨BlacklistTables.importedRows_deleteBannedIps_of_ne _ different, rfl⟩
  | insert entry banType =>
      exact ⟨BlacklistTables.importedRows_insertBannedIp_of_ne _ _ _ _ _ _ different, rfl⟩
  | stamp =>
      refine ⟨rfl, ?_⟩
      rw [BlacklistTables.getBlacklistById_setLastUpdate]
      cases found : tables.getBlacklistById other with
      | none => rfl
      | some list =>
          have named : list.id = other := by simpa using List.find?_some found
          simp [named, different]

theorem SyncChange.otherRows {after : BlacklistTables} (change : SyncChange id now tables after) :
    after.otherRows id = tables.otherRows id := by
  cases change with
  | none => rfl
  | delete => exact BlacklistTables.otherRows_deleteBannedIps _ _
  | insert entry banType => exact BlacklistTables.otherRows_insertBannedIp _ _ _ _ _ _ _
  | stamp => rfl

structure SyncRun where
  tables : BlacklistTables
  stage : SyncStage
  stopped : Bool

/-- The statement at which a call stands may fail, and the process may stop
there.  Either way the call ends with the tables as they are. -/
inductive SyncEvent where
  | advance (now : Int)
  | stop

def syncSystem (isDigit : Char → Bool) (answer : FetchAnswer) (id : Int) :
    System SyncRun SyncEvent where
  enabled state _ := state.stopped = false ∧ state.stage.finished = false
  next state
    | .advance now =>
        let (stage, tables) := syncStep isDigit answer id now state.tables state.stage
        { state with stage, tables }
    | .stop => { state with stopped := true }

/-- What a ban check sees of the blacklist: its ranges as they were, or the
ranges of the list that was fetched. -/
def AllOrNothing (isDigit : Char → Bool) (answer : FetchAnswer) (id : Int)
    (start : BlacklistTables) (state : SyncRun) : Prop :=
  state.tables.importedRows id = start.importedRows id ∨
    ∃ banType entries, Described isDigit answer id start banType entries ∧
      Imports id banType entries state.tables

/-- Only a first part of the list need be there, but once the time of the last
update changes it is complete. -/
structure PrefixOrNothing (isDigit : Char → Bool) (answer : FetchAnswer) (id : Int)
    (start : BlacklistTables) (state : SyncRun) : Prop where
  imported : state.tables.importedRows id = start.importedRows id ∨
    ∃ banType entries count, Described isDigit answer id start banType entries ∧
      Imports id banType (entries.take count) state.tables
  stamped : state.tables.lists = start.lists ∨
    ∃ banType entries stampedAt, state.stage = .synced banType entries stampedAt ∧
      state.tables.lists = (start.setLastUpdate id stampedAt).lists
  finished : ∀ banType entries stampedAt, state.stage = .synced banType entries stampedAt →
    Described isDigit answer id start banType entries ∧ Imports id banType entries state.tables
  others : state.tables.otherRows id = start.otherRows id

/-- The table of blacklists changes with the last statement only. -/
def ListsAt (id : Int) (start tables : BlacklistTables) : SyncStage → Prop
  | .synced _ _ stampedAt => tables.lists = (start.setLastUpdate id stampedAt).lists
  | _ => tables.lists = start.lists

theorem ListsAt.step (lists : ListsAt id start tables stage) :
    ListsAt id start (syncStep isDigit answer id now tables stage).2
      (syncStep isDigit answer id now tables stage).1 := by
  cases stage with
  | started =>
      cases lookup : tables.getBlacklistById id <;> simp only [syncStep, lookup] <;> exact lists
  | found list =>
      cases fetched : fetchIpRanges isDigit answer <;> simp only [syncStep, fetched] <;> exact lists
  | fetched banType entries => exact lists
  | inserting banType entries count =>
      have unchanged : tables.lists = start.lists := lists
      cases next : entries[count]? with
      | some entry =>
          simp only [syncStep, next]
          exact unchanged
      | none =>
          simp only [syncStep, next, ListsAt, BlacklistTables.setLastUpdate, unchanged]
  | synced banType entries stampedAt => exact lists
  | failed => exact lists

structure SyncInvariant (isDigit : Char → Bool) (answer : FetchAnswer) (id : Int)
    (start : BlacklistTables) (state : SyncRun) : Prop where
  progress : Progress isDigit answer id start state.tables state.stage
  lists : ListsAt id start state.tables state.stage
  others : state.tables.otherRows id = start.otherRows id

theorem Progress.imported (progress : Progress isDigit answer id start tables stage) :
    tables.importedRows id = start.importedRows id ∨
      ∃ banType entries count, Described isDigit answer id start banType entries ∧
        Imports id banType (entries.take count) tables := by
  cases stage with
  | started => exact .inl progress.rows
  | found list => exact .inl progress.1.rows
  | fetched banType entries => exact .inl progress.1.rows
  | inserting banType entries count =>
      exact .inr ⟨banType, entries, count, progress.2.2, progress.1⟩
  | synced banType entries stampedAt =>
      refine .inr ⟨banType, entries, entries.length, progress.2.2, ?_⟩
      rw [List.take_length]
      exact progress.1
  | failed => exact .inl progress.1.rows

theorem ListsAt.stamped (lists : ListsAt id start tables stage) :
    tables.lists = start.lists ∨
      ∃ banType entries stampedAt, stage = .synced banType entries stampedAt ∧
        tables.lists = (start.setLastUpdate id stampedAt).lists := by
  cases stage with
  | synced banType entries stampedAt => exact .inr ⟨banType, entries, stampedAt, rfl, lists⟩
  | started => exact .inl lists
  | found list => exact .inl lists
  | fetched banType entries => exact .inl lists
  | inserting banType entries count => exact .inl lists
  | failed => exact .inl lists

theorem SyncInvariant.prefixOrNothing {state : SyncRun}
    (invariant : SyncInvariant isDigit answer id start state) :
    PrefixOrNothing isDigit answer id start state where
  imported := invariant.progress.imported
  stamped := invariant.lists.stamped
  finished banType entries stampedAt stage := by
    have progress := invariant.progress
    rw [stage] at progress
    exact ⟨progress.2.2, progress.1⟩
  others := invariant.others

theorem SyncInvariant.next {state : SyncRun} (event : SyncEvent)
    (invariant : SyncInvariant isDigit answer id start state) :
    SyncInvariant isDigit answer id start ((syncSystem isDigit answer id).next state event) := by
  cases event with
  | advance now =>
      obtain ⟨progress, lists, others⟩ := invariant
      exact ⟨progress.step, lists.step,
        (syncStep_change isDigit answer id now state.tables state.stage).otherRows.trans others⟩
  | stop => exact ⟨invariant.progress, invariant.lists, invariant.others⟩

/-- Wherever a call of `sync_blacklist` stops, its blacklist has its old ranges
or a first part of the new list. -/
theorem sync_prefix_or_nothing {events : List SyncEvent} {state : SyncRun}
    (run : (syncSystem isDigit answer id).Run ⟨start, .started, false⟩ events state) :
    PrefixOrNothing isDigit answer id start state := by
  refine SyncInvariant.prefixOrNothing (run.invariant ⟨⟨rfl, rfl⟩, rfl, rfl⟩ ?_)
  exact fun _ event invariant _ => invariant.next event

def importedRange : BannedIpRange where
  id := 1
  startIp := toDbBytes (.v4 (.new 10 0 0 1))
  endIp := toDbBytes (.v4 (.new 10 0 0 1))
  reason := none
  expiresTimestamp := none
  blacklistId := some 1
  type := .readOnly

/-- One blacklist, synchronised once, with one range. -/
def syncedTables : BlacklistTables :=
  ⟨⟨[importedRange], 2, [], [], [], []⟩,
    [⟨1, "http://localhost/list".toList, .readOnly, some 0, 86400⟩], 2⟩

def sameList : FetchAnswer := .response 200 "10.0.0.1".toList

def deletedEvents : List SyncEvent := [.advance 86400, .advance 86400, .advance 86400]

/-- Between the deletion and the first insertion the ban is lifted. -/
theorem sync_lifts_ban :
    (syncSystem Char.isDigit sameList 1).Run ⟨syncedTables, .started, false⟩ deletedEvents
        ((syncSystem Char.isDigit sameList 1).after ⟨syncedTables, .started, false⟩
          deletedEvents) ∧
      ¬AllOrNothing Char.isDigit sameList 1 syncedTables
        ((syncSystem Char.isDigit sameList 1).after ⟨syncedTables, .started, false⟩
          deletedEvents) := by
  refine ⟨.of_admits ⟨⟨⟨trivial, rfl, rfl⟩, rfl, rfl⟩, rfl, rfl⟩, fun either => ?_⟩
  rcases either with old | ⟨banType, entries, described, imports⟩
  · have count := congrArg List.length old
    revert count
    decide
  · cases described.fetched
    have count := congrArg List.length imports
    rw [List.length_map, List.length_map] at count
    revert count
    decide +kernel

theorem sync_prefix_or_nothing_deleted :
    PrefixOrNothing Char.isDigit sameList 1 syncedTables
      ((syncSystem Char.isDigit sameList 1).after ⟨syncedTables, .started, false⟩
        deletedEvents) :=
  sync_prefix_or_nothing (.of_admits ⟨⟨⟨trivial, rfl, rfl⟩, rfl, rfl⟩, rfl, rfl⟩)

end Filehost.Blacklist
