import Filehost.Data.Registers
import Filehost.Data.Refinement
import Filehost.Database.Blacklists
import Mathlib.Data.List.Lex

namespace Filehost.Database

open Filehost.Data Filehost.Data.Registers Filehost.Ip

/-! # The statements that change bans

Handlers, commands, scans and the import of blacklists run these, in any order.  A table
of bans other than addresses is a register. -/

inductive BanStatement where
  | insertBannedIp (startIp endIp : IpAddr) (reason : Option (List Char))
      (expiresTimestamp blacklistId : Option Int) (banType : BanType)
  | deleteBannedIp (id : Int)
  | deleteBannedIpsByBlacklist (blacklistId : Int)
  | insertBannedFilename (pattern : List Char) (reason : Option (List Char))
  | deleteBannedFilename (pattern : List Char)
  | insertBannedMime (mime : List Char)
  | deleteBannedMime (mime : List Char)
  | insertBannedHash (hash : List UInt8) (reason : Option (List Char))
  | deleteBannedHash (hash : List UInt8)
  | insertBannedUserAgent (pattern : List Char) (reason : Option (List Char))
  | deleteBannedUserAgent (pattern : List Char)

namespace BanStatement

variable (collation : Collation)

/-- `DELETE` answers whether it affected a row, and leaves the tables as they are if not. -/
def run (tables : BanTables) : BanStatement → BanTables
  | insertBannedIp startIp endIp reason expiresTimestamp blacklistId banType =>
      tables.insertBannedIp startIp endIp reason expiresTimestamp blacklistId banType
  | deleteBannedIp id => (tables.deleteBannedIp id).getD tables
  | deleteBannedIpsByBlacklist blacklistId =>
      { tables with ipRanges := tables.ipRanges.filter fun row => row.blacklistId ≠ some blacklistId }
  | insertBannedFilename pattern reason => tables.insertBannedFilename collation pattern reason
  | deleteBannedFilename pattern => (tables.deleteBannedFilename collation pattern).getD tables
  | insertBannedMime mime => tables.insertBannedMime collation mime
  | deleteBannedMime mime => (tables.deleteBannedMime collation mime).getD tables
  | insertBannedHash hash reason => tables.insertBannedHash hash reason
  | deleteBannedHash hash => (tables.deleteBannedHash hash).getD tables
  | insertBannedUserAgent pattern reason => tables.insertBannedUserAgent collation pattern reason
  | deleteBannedUserAgent pattern => (tables.deleteBannedUserAgent collation pattern).getD tables

def reasonFits (reason : Option (List Char)) : Bool := reason.all (fitsVarchar 255)

/-- `INSERT IGNORE` cuts a text that is wider than its column. -/
def fits : BanStatement → Bool
  | insertBannedIp _ _ reason _ _ _ | insertBannedHash _ reason => reasonFits reason
  | insertBannedFilename pattern reason | insertBannedUserAgent pattern reason =>
      fitsVarchar 255 pattern && reasonFits reason
  | insertBannedMime mime => fitsVarchar 255 (collation.lower mime)
  | _ => true

end BanStatement

def banStatementSystem (collation : Collation) : System BanTables BanStatement where
  enabled _ statement := statement.fits collation = true
  next tables statement := statement.run collation tables

/-! ## Registers -/

/-- Rows are kept by the weights of their texts. -/
abbrev TextChange (Row : Type) := Change (List Nat) Row

def BannedFilename.key (collation : Collation) (row : BannedFilename) : List Nat :=
  collation.weights row.pattern

def BannedUserAgent.key (collation : Collation) (row : BannedUserAgent) : List Nat :=
  collation.weights row.pattern

def hashKey (hash : List UInt8) : List Nat := hash.map UInt8.toNat

def BannedFileHash.key (row : BannedFileHash) : List Nat := hashKey row.hash

namespace BanStatement

variable (collation : Collation)

def filenameChange : BanStatement → Option (TextChange BannedFilename)
  | insertBannedFilename pattern reason => some (.enter ⟨pattern, reason⟩)
  | deleteBannedFilename pattern => some (.strike (collation.weights pattern))
  | _ => none

def mimeChange : BanStatement → Option (TextChange (List Char))
  | insertBannedMime mime => some (.enter (collation.lower mime))
  | deleteBannedMime mime => some (.strike (collation.weights (collation.lower mime)))
  | _ => none

def hashChange : BanStatement → Option (TextChange BannedFileHash)
  | insertBannedHash hash reason => some (.enter ⟨hash, reason⟩)
  | deleteBannedHash hash => some (.strike (hashKey hash))
  | _ => none

def userAgentChange : BanStatement → Option (TextChange BannedUserAgent)
  | insertBannedUserAgent pattern reason => some (.enter ⟨pattern, reason⟩)
  | deleteBannedUserAgent pattern => some (.strike (collation.weights pattern))
  | _ => none

end BanStatement

section Changes

variable {Row : Type} {keyOf : Row → List Nat} {rows : List Row}

def changed (keyOf : Row → List Nat) (change : Option (TextChange Row)) (rows : List Row) :
    List Row :=
  match change with
  | none => rows
  | some change => Registers.apply keyOf change rows

theorem insertIgnore_eq {duplicates : Row → Bool} {row : Row}
    (recognises : ∀ other, duplicates other = decide (keyOf other = keyOf row)) :
    insertIgnore duplicates row rows = changed keyOf (some (.enter row)) rows := by
  have same : duplicates = fun other => decide (keyOf other = keyOf row) := funext recognises
  rw [insertIgnore, same]
  rfl

theorem deleteWhere_getD {selects : Row → Bool} {key : List Nat}
    (recognises : ∀ other, selects other = decide (keyOf other = key)) :
    (deleteWhere selects rows).getD rows = changed keyOf (some (.strike key)) rows := by
  have same : selects = fun other => decide (keyOf other = key) := funext recognises
  rw [same, deleteWhere]
  simp only [changed, Registers.apply, ne_eq, decide_not]
  split
  · rfl
  · rename_i unmatched
    rw [Option.getD_none, eq_comm, List.filter_eq_self]
    simpa using unmatched

/-- A deletion replaces one table. -/
theorem getD_map_field {selects : Row → Bool} {tables : BanTables} {field : BanTables → List Row}
    {replace : List Row → BanTables} (replaces : ∀ rows, field (replace rows) = rows) :
    field (((deleteWhere selects (field tables)).map replace).getD tables) =
      (deleteWhere selects (field tables)).getD (field tables) := by
  cases deleteWhere selects (field tables) with
  | none => rfl
  | some rows => exact replaces rows

/-- And leaves the others. -/
theorem getD_map_other {Other : Type} {selects : Row → Bool} {tables : BanTables}
    {field : BanTables → List Other} {replace : List Row → BanTables}
    (kept : ∀ rows, field (replace rows) = field tables) :
    field (((deleteWhere selects rows).map replace).getD tables) = field tables := by
  cases deleteWhere selects rows with
  | none => rfl
  | some rows => exact kept rows

end Changes

variable {collation : Collation} {tables : BanTables}

theorem hashKey_inj {left right : List UInt8} : hashKey left = hashKey right ↔ left = right :=
  List.map_inj_right fun _ _ => UInt8.toNat_inj.mp

theorem hash_recognised (hash : List UInt8) (row : BannedFileHash) :
    (row.hash == hash) = decide (row.key = hashKey hash) := by
  by_cases same : row.hash = hash
  · simp [BannedFileHash.key, same]
  · simp [BannedFileHash.key, hashKey_inj, same]

theorem filenames_run (statement : BanStatement) : (statement.run collation tables).filenames =
    changed (BannedFilename.key collation) (statement.filenameChange collation) tables.filenames := by
  cases statement with
  | insertBannedFilename pattern reason => exact insertIgnore_eq fun _ => rfl
  | deleteBannedFilename pattern =>
      exact (getD_map_field fun _ => rfl).trans (deleteWhere_getD fun _ => rfl)
  | deleteBannedIp id => exact getD_map_other fun _ => rfl
  | deleteBannedMime mime => exact getD_map_other fun _ => rfl
  | deleteBannedHash hash => exact getD_map_other fun _ => rfl
  | deleteBannedUserAgent pattern => exact getD_map_other fun _ => rfl
  | _ => rfl

theorem mimes_run (statement : BanStatement) : (statement.run collation tables).mimes =
    changed collation.weights (statement.mimeChange collation) tables.mimes := by
  cases statement with
  | insertBannedMime mime => exact insertIgnore_eq fun _ => rfl
  | deleteBannedMime mime =>
      exact (getD_map_field fun _ => rfl).trans (deleteWhere_getD fun _ => rfl)
  | deleteBannedIp id => exact getD_map_other fun _ => rfl
  | deleteBannedFilename pattern => exact getD_map_other fun _ => rfl
  | deleteBannedHash hash => exact getD_map_other fun _ => rfl
  | deleteBannedUserAgent pattern => exact getD_map_other fun _ => rfl
  | _ => rfl

theorem hashes_run (statement : BanStatement) : (statement.run collation tables).hashes =
    changed BannedFileHash.key statement.hashChange tables.hashes := by
  cases statement with
  | insertBannedHash hash reason => exact insertIgnore_eq (hash_recognised hash)
  | deleteBannedHash hash =>
      exact (getD_map_field fun _ => rfl).trans (deleteWhere_getD (hash_recognised hash))
  | deleteBannedIp id => exact getD_map_other fun _ => rfl
  | deleteBannedFilename pattern => exact getD_map_other fun _ => rfl
  | deleteBannedMime mime => exact getD_map_other fun _ => rfl
  | deleteBannedUserAgent pattern => exact getD_map_other fun _ => rfl
  | _ => rfl

theorem userAgents_run (statement : BanStatement) : (statement.run collation tables).userAgents =
    changed (BannedUserAgent.key collation) (statement.userAgentChange collation)
      tables.userAgents := by
  cases statement with
  | insertBannedUserAgent pattern reason => exact insertIgnore_eq fun _ => rfl
  | deleteBannedUserAgent pattern =>
      exact (getD_map_field fun _ => rfl).trans (deleteWhere_getD fun _ => rfl)
  | deleteBannedIp id => exact getD_map_other fun _ => rfl
  | deleteBannedFilename pattern => exact getD_map_other fun _ => rfl
  | deleteBannedMime mime => exact getD_map_other fun _ => rfl
  | deleteBannedHash hash => exact getD_map_other fun _ => rfl
  | _ => rfl

/-! ## The lists -/

namespace BanTables

variable (collation : Collation) (tables : BanTables)

def listBannedFilenames : List BannedFilename :=
  sheet (BannedFilename.key collation) tables.filenames

def listBannedMimes : List (List Char) := sheet collation.weights tables.mimes

def listBannedHashes : List BannedFileHash := sheet BannedFileHash.key tables.hashes

def listBannedUserAgents : List BannedUserAgent :=
  sheet (BannedUserAgent.key collation) tables.userAgents

end BanTables

/-- Nothing is banned yet, and no identifier has been given out. -/
structure Unbanned (tables : BanTables) : Prop where
  ipRanges : tables.ipRanges = []
  nextRangeId : tables.nextRangeId = 1
  filenames : tables.filenames = []
  mimes : tables.mimes = []
  hashes : tables.hashes = []
  userAgents : tables.userAgents = []

def BanTables.empty : BanTables := ⟨[], 1, [], [], [], []⟩

theorem unbanned_empty : Unbanned .empty := ⟨rfl, rfl, rfl, rfl, rfl, rfl⟩

section Runs

variable {start : BanTables} {statements : List BanStatement}

/-- A table that every statement changes as a register is one after a run. -/
theorem run_keeps {Row : Type} {keyOf : Row → List Nat} {field : BanTables → List Row}
    {change : BanStatement → Option (TextChange Row)}
    (run : (banStatementSystem collation).Run start statements tables) (empty : field start = [])
    (steps : ∀ tables (statement : BanStatement), field (statement.run collation tables) =
      changed keyOf (change statement) (field tables)) :
    Keeps keyOf (field tables) (statements.filterMap change) := by
  have replayed : field tables = replay keyOf (statements.filterMap change) := by
    induction run with
    | start => exact empty
    | @step statements tables statement _ _ ih =>
        rw [List.filterMap_cons]
        refine (steps tables statement).trans ?_
        rw [ih]
        cases change statement <;> rfl
  rw [replayed]
  exact keeps_replay keyOf _

theorem run_filenames (run : (banStatementSystem collation).Run start statements tables)
    (unbanned : Unbanned start) : Keeps (BannedFilename.key collation) tables.filenames
      (statements.filterMap (BanStatement.filenameChange collation)) :=
  run_keeps run unbanned.filenames fun _ => filenames_run

theorem run_mimes (run : (banStatementSystem collation).Run start statements tables)
    (unbanned : Unbanned start) : Keeps collation.weights tables.mimes
      (statements.filterMap (BanStatement.mimeChange collation)) :=
  run_keeps run unbanned.mimes fun _ => mimes_run

theorem run_hashes (run : (banStatementSystem collation).Run start statements tables)
    (unbanned : Unbanned start) :
    Keeps BannedFileHash.key tables.hashes (statements.filterMap BanStatement.hashChange) :=
  run_keeps run unbanned.hashes fun _ => hashes_run

theorem run_userAgents (run : (banStatementSystem collation).Run start statements tables)
    (unbanned : Unbanned start) : Keeps (BannedUserAgent.key collation) tables.userAgents
      (statements.filterMap (BanStatement.userAgentChange collation)) :=
  run_keeps run unbanned.userAgents fun _ => userAgents_run

end Runs

/-! ## Ranges of addresses

Every range has an identifier of its own, which is never given out again. -/

namespace BanStatement

def insertsRange : BanStatement → Bool
  | insertBannedIp _ _ _ _ _ _ => true
  | _ => false

def rangeOf (id : Int) : BanStatement → Option BannedIpRange
  | insertBannedIp startIp endIp reason expiresTimestamp blacklistId banType =>
      some ⟨id, toDbBytes startIp, toDbBytes endIp, reason, expiresTimestamp, blacklistId, banType⟩
  | _ => none

def deletes (row : BannedIpRange) : BanStatement → Bool
  | deleteBannedIp id => row.id = id
  | deleteBannedIpsByBlacklist blacklistId => row.blacklistId = some blacklistId
  | _ => false

end BanStatement

/-- The identifier that the next range is given. -/
def idAfter (statements : List BanStatement) : Int :=
  1 + statements.countP BanStatement.insertsRange

def StandingRange (statements : List BanStatement) (row : BannedIpRange) : Prop :=
  ∃ newer older statement, statements = newer ++ statement :: older ∧
    statement.rangeOf (idAfter older) = some row ∧ ∀ later ∈ newer, later.deletes row = false

theorem standingRange_cons {statement : BanStatement} {older : List BanStatement}
    {row : BannedIpRange} : StandingRange (statement :: older) row ↔
      statement.rangeOf (idAfter older) = some row ∨
        StandingRange older row ∧ statement.deletes row = false := by
  constructor
  · intro stands
    obtain ⟨newer, earlier, inserted, split, ranged, kept⟩ := stands
    cases newer with
    | nil =>
        cases split
        exact .inl ranged
    | cons last newer =>
        cases split
        exact .inr ⟨⟨newer, earlier, inserted, rfl, ranged,
          fun later member => kept later (List.mem_cons_of_mem _ member)⟩,
          kept statement List.mem_cons_self⟩
  · intro holds
    rcases holds with ranged | ⟨⟨newer, earlier, inserted, rfl, ranged, kept⟩, spared⟩
    · exact ⟨[], older, statement, rfl, ranged, fun _ member => absurd member List.not_mem_nil⟩
    · refine ⟨statement :: newer, earlier, inserted, rfl, ranged, fun later member => ?_⟩
      rcases List.mem_cons.mp member with rfl | member
      · exact spared
      · exact kept later member

theorem mem_ranges_run {statement : BanStatement} {row : BannedIpRange} :
    row ∈ (statement.run collation tables).ipRanges ↔
      statement.rangeOf tables.nextRangeId = some row ∨
        row ∈ tables.ipRanges ∧ statement.deletes row = false := by
  have unchanged {after : BanTables} (same : after.ipRanges = tables.ipRanges) :
      row ∈ after.ipRanges ↔ none = some row ∨ row ∈ tables.ipRanges ∧ false = false := by
    simp [same]
  cases statement with
  | insertBannedIp startIp endIp reason expiresTimestamp blacklistId banType =>
      change row ∈ tables.ipRanges ++ [_] ↔ some _ = some row ∨ _ ∧ false = false
      rw [List.mem_append, List.mem_singleton, Option.some_inj, eq_comm, or_comm]
      simp
  | deleteBannedIp id =>
      change row ∈ (((deleteWhere _ tables.ipRanges).map _).getD tables).ipRanges ↔
        none = some row ∨ _ ∧ decide (row.id = id) = false
      cases deleted : deleteWhere (fun row => row.id == id) tables.ipRanges with
      | none =>
          have absent := deleteWhere_eq_none deleted
          simp only [Option.map_none, Option.getD_none, reduceCtorEq, false_or, iff_self_and]
          exact fun member => absent row member
      | some rows =>
          rw [deleteWhere_eq_some deleted]
          simp
  | deleteBannedIpsByBlacklist blacklistId =>
      simp [BanStatement.run, BanStatement.rangeOf, BanStatement.deletes]
  | deleteBannedFilename pattern => exact unchanged (getD_map_other fun _ => rfl)
  | deleteBannedMime mime => exact unchanged (getD_map_other fun _ => rfl)
  | deleteBannedHash hash => exact unchanged (getD_map_other fun _ => rfl)
  | deleteBannedUserAgent pattern => exact unchanged (getD_map_other fun _ => rfl)
  | _ => exact unchanged rfl

theorem nextRangeId_run (statement : BanStatement) :
    (statement.run collation tables).nextRangeId =
      tables.nextRangeId + statement.insertsRange.toNat := by
  have kept {Row : Type} {selects : Row → Bool} {rows : List Row} {replace : List Row → BanTables}
      (same : ∀ rows, (replace rows).nextRangeId = tables.nextRangeId) :
      (((deleteWhere selects rows).map replace).getD tables).nextRangeId =
        tables.nextRangeId + (0 : Nat) := by
    cases deleteWhere selects rows with
    | none => exact (Int.add_zero _).symm
    | some rows => exact (same rows).trans (Int.add_zero _).symm
  cases statement with
  | insertBannedIp startIp endIp reason expiresTimestamp blacklistId banType => rfl
  | deleteBannedIp id => exact kept fun _ => rfl
  | deleteBannedFilename pattern => exact kept fun _ => rfl
  | deleteBannedMime mime => exact kept fun _ => rfl
  | deleteBannedHash hash => exact kept fun _ => rfl
  | deleteBannedUserAgent pattern => exact kept fun _ => rfl
  | _ => exact (Int.add_zero _).symm

/-- The table holds the ranges that stand. -/
structure KeepsRanges (statements : List BanStatement) (tables : BanTables) : Prop where
  mem_iff : ∀ row, row ∈ tables.ipRanges ↔ StandingRange statements row
  nextRangeId : tables.nextRangeId = idAfter statements

theorem run_ranges {start : BanTables} {statements : List BanStatement}
    (run : (banStatementSystem collation).Run start statements tables) (unbanned : Unbanned start) :
    KeepsRanges statements tables := by
  refine run.invariant_with_events ⟨fun row => ?_, unbanned.nextRangeId⟩ ?_
  · rw [unbanned.ipRanges]
    refine iff_of_false List.not_mem_nil fun stands => ?_
    obtain ⟨newer, older, statement, split, -⟩ := stands
    simp at split
  · intro statements tables statement before _
    refine ⟨fun row => ?_, ?_⟩
    · refine mem_ranges_run.trans ?_
      rw [standingRange_cons, before.mem_iff, before.nextRangeId]
    · refine (nextRangeId_run statement).trans ?_
      rw [before.nextRangeId, idAfter, idAfter, List.countP_cons]
      cases statement.insertsRange <;> push_cast <;> simp [Int.add_assoc]

/-- A range was inserted that holds the client, is of the type or a severer one and has
not expired, and since then neither it nor the ranges of its blacklist were deleted. -/
def BannedBy (statements : List BanStatement) (client : IpAddr) (banType : BanType) (now : Int) :
    Prop :=
  ∃ newer older startIp endIp reason expiresTimestamp blacklistId kind,
    statements = newer ++
      .insertBannedIp startIp endIp reason expiresTimestamp blacklistId kind :: older ∧
    toDbBytes startIp ≤ toDbBytes client ∧ toDbBytes client ≤ toDbBytes endIp ∧
    banType.severity ≤ kind.severity ∧ (∀ time, expiresTimestamp = some time → now < time) ∧
    .deleteBannedIp (idAfter older) ∉ newer ∧
    ∀ id, blacklistId = some id → .deleteBannedIpsByBlacklist id ∉ newer

theorem spared_iff {newer : List BanStatement} {row : BannedIpRange} :
    (∀ later ∈ newer, later.deletes row = false) ↔ .deleteBannedIp row.id ∉ newer ∧
      ∀ id, row.blacklistId = some id → .deleteBannedIpsByBlacklist id ∉ newer := by
  constructor
  · intro spared
    refine ⟨fun deleted => ?_, fun id imported deleted => ?_⟩
    · exact absurd rfl (of_decide_eq_false (spared _ deleted))
    · exact absurd imported (of_decide_eq_false (spared _ deleted))
  · intro holds later member
    cases later with
    | deleteBannedIp id => exact decide_eq_false fun same => holds.1 (same ▸ member)
    | deleteBannedIpsByBlacklist id => exact decide_eq_false fun same => holds.2 id same member
    | _ => rfl

theorem isIpBanned_iff {client : IpAddr} {banType : BanType} {now : Int} :
    tables.isIpBanned client banType now = true ↔ ∃ row ∈ tables.ipRanges,
      row.startIp ≤ toDbBytes client ∧ toDbBytes client ≤ row.endIp ∧
        banType.severity ≤ row.type.severity ∧
        ∀ time, row.expiresTimestamp = some time → now < time := by
  simp only [BanTables.isIpBanned, List.any_eq_true, Bool.and_eq_true, decide_eq_true_eq,
    Option.all_eq_true_iff_get, and_assoc]
  refine exists_congr fun row => and_congr_right fun _ => and_congr_right fun _ =>
    and_congr_right fun _ => and_congr_right fun _ => ?_
  cases row.expiresTimestamp <;> simp

/-- What bans a client after any statements. -/
theorem run_isIpBanned_iff {start : BanTables} {statements : List BanStatement}
    (run : (banStatementSystem collation).Run start statements tables) (unbanned : Unbanned start)
    (client : IpAddr) (banType : BanType) (now : Int) :
    tables.isIpBanned client banType now = true ↔ BannedBy statements client banType now := by
  rw [isIpBanned_iff]
  constructor
  · intro banned
    obtain ⟨row, member, covered⟩ := banned
    obtain ⟨newer, older, statement, rfl, ranged, spared⟩ :=
      ((run_ranges run unbanned).mem_iff row).mp member
    cases statement with
    | insertBannedIp startIp endIp reason expiresTimestamp blacklistId kind =>
        cases ranged
        exact ⟨newer, older, startIp, endIp, reason, expiresTimestamp, blacklistId, kind, rfl,
          covered.1, covered.2.1, covered.2.2.1, covered.2.2.2, spared_iff.mp spared⟩
    | _ => cases ranged
  · intro banned
    obtain ⟨newer, older, startIp, endIp, reason, expiresTimestamp, blacklistId, kind, split, above,
      below, severe, pending, spared⟩ := banned
    refine ⟨_, ((run_ranges run unbanned).mem_iff _).mpr ⟨newer, older, _, split, rfl, ?_⟩, above,
      below, severe, pending⟩
    exact spared_iff.mpr spared

def localhost : IpAddr := .v4 (.new 127 0 0 1)

/-- One address, inserted twice and deleted once. -/
def insertedTwice : List BanStatement :=
  [.deleteBannedIp 1, .insertBannedIp localhost localhost none none none .full,
    .insertBannedIp localhost localhost none none none .full]

theorem insertedTwice_banned : BannedBy insertedTwice localhost .readOnly 0 := by
  have run : (banStatementSystem .binary).Run .empty insertedTwice _ :=
    .of_admits ⟨⟨⟨trivial, rfl⟩, rfl⟩, rfl⟩
  exact (run_isIpBanned_iff run unbanned_empty localhost .readOnly 0).mp (by decide)

end Filehost.Database
