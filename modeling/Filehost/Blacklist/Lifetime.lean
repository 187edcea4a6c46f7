import Filehost.Admin.Cli

namespace Filehost.Blacklist

open Filehost.Admin Filehost.Data Filehost.Database Filehost.Ip

/-! # How long imported bans live

The commands of the command line in any order.  A synchronisation may stop
between any two of its statements. -/

inductive CliCommand where
  | blacklistAdd (url : List Char) (type interval : Nat)
  | blacklistRemove (id : Int)
  | blacklistSync (round : Round)
  | banIpAdd (arguments : BanIpAdd)
  | banIpRemove (id : Int)

def withBans (tables : BlacklistTables) (result : Except CliError BanTables) :
    Except CliError BlacklistTables :=
  result.map fun bans => { tables with bans }

def runCommand (text : RequestText) (isDigit : Char → Bool) (tables : BlacklistTables) :
    CliCommand → Except CliError BlacklistTables
  | .blacklistAdd url type interval => addBlacklist url type interval tables
  | .blacklistRemove id => removeBlacklist id tables
  | .blacklistSync round => .ok (syncAll isDigit round tables).tables
  | .banIpAdd arguments => withBans tables (banIpAdd text arguments tables.bans)
  | .banIpRemove id => withBans tables (banIpRemove id tables.bans)

/-- A command that fails leaves the tables. -/
def cliSystem (text : RequestText) (isDigit : Char → Bool) : System BlacklistTables CliCommand where
  enabled _ _ := True
  next tables command :=
    match runCommand text isDigit tables command with
    | .ok after => after
    | .error _ => tables

def RefersToLists (tables : BlacklistTables) : Prop :=
  ∀ row ∈ tables.bans.ipRanges, ∀ id, row.blacklistId = some id →
    id ∈ tables.lists.map Blacklist.id

/-- A blacklist is removed only when it has no ranges. -/
def RemovesUnused (tables : BlacklistTables) : CliCommand → Prop
  | .blacklistRemove id => tables.importedRows id = []
  | _ => True

variable {text : RequestText} {isDigit : Char → Bool} {tables after : BlacklistTables} {id : Int}

theorem RefersToLists.of_subset (refers : RefersToLists tables)
    (rows : after.bans.ipRanges ⊆ tables.bans.ipRanges)
    (lists : tables.lists.map Blacklist.id ⊆ after.lists.map Blacklist.id) :
    RefersToLists after := by
  intro row member id imported
  exact lists (refers row (rows member) id imported)

theorem RefersToLists.insertBannedIp (refers : RefersToLists tables) (startIp endIp : IpAddr)
    (reason : Option (List Char)) (expires : Option Int) {blacklistId : Option Int}
    (listed : ∀ id, blacklistId = some id → id ∈ tables.lists.map Blacklist.id)
    (banType : BanType) :
    RefersToLists (tables.insertBannedIp startIp endIp reason expires blacklistId banType) := by
  intro row member id imported
  rcases List.mem_append.mp member with earlier | new
  · exact refers row earlier id imported
  · obtain rfl := List.mem_singleton.mp new
    exact listed id imported

theorem lists_setLastUpdate_ids (tables : BlacklistTables) (id now : Int) :
    (tables.setLastUpdate id now).lists.map Blacklist.id = tables.lists.map Blacklist.id := by
  simp only [BlacklistTables.setLastUpdate, List.map_map]
  apply List.map_congr_left
  intro list _
  dsimp only [Function.comp]
  split <;> rfl

theorem SyncChange.lists_ids {now : Int} (change : SyncChange id now tables after) :
    after.lists.map Blacklist.id = tables.lists.map Blacklist.id := by
  cases change with
  | none => rfl
  | delete => rfl
  | insert entry banType => rfl
  | stamp => exact lists_setLastUpdate_ids tables id now

theorem RefersToLists.change {now : Int} (refers : RefersToLists tables)
    (change : SyncChange id now tables after) (listed : id ∈ tables.lists.map Blacklist.id) :
    RefersToLists after := by
  have ids := change.lists_ids
  cases change with
  | none => exact refers
  | delete => exact refers.of_subset (List.filter_subset_self _) (List.Subset.refl _)
  | insert entry banType =>
      exact refers.insertBannedIp _ _ _ _ (fun other same => Option.some.inj same ▸ listed) _
  | stamp => exact refers.of_subset (List.Subset.refl _) (ids ▸ List.Subset.refl _)

/-- What the calls of a round keep: each of them belongs to a blacklist, whose
row stays. -/
structure RoundRefers (start : BlacklistTables) (state : RoundState) : Prop where
  refers : RefersToLists state.tables
  ids : state.tables.lists.map Blacklist.id = start.lists.map Blacklist.id
  running : ∀ id stage, state.stages id = some stage → id ∈ start.lists.map Blacklist.id

theorem RoundRefers.advance {start : BlacklistTables} {state : RoundState} {round : Round}
    (kept : RoundRefers start state) (moved : Int) :
    RoundRefers start (state.advance isDigit round moved) := by
  unfold RoundState.advance
  cases found : state.stages moved with
  | none => exact kept
  | some stage =>
      have listed := kept.running moved stage found
      have change := syncStep_change isDigit (round.answers moved) moved (round.stampedAt moved)
        state.tables stage
      refine ⟨kept.refers.change change (kept.ids ▸ listed), change.lists_ids.trans kept.ids, ?_⟩
      intro id current present
      by_cases same : id = moved
      · exact same ▸ listed
      · exact kept.running id current ((Function.update_of_ne same ..).symm.trans present)

theorem RefersToLists.syncAll (refers : RefersToLists tables) (isDigit : Char → Bool)
    (round : Round) : RefersToLists (syncAll isDigit round tables).tables := by
  have begun : RoundRefers tables (.begin round tables) := by
    refine ⟨refers, rfl, fun id stage present => ?_⟩
    cases due : dueIn round tables id with
    | false => simp [RoundState.begin, due] at present
    | true =>
        obtain ⟨list, found⟩ := dueIn_found due
        have named : list.id = id := by simpa using List.find?_some found
        exact List.mem_map.mpr ⟨list, List.mem_of_find?_eq_some found, named⟩
  exact (syncAll_invariant begun fun _ moved kept => kept.advance moved).refers

theorem RefersToLists.importedRows_nil (refers : RefersToLists tables)
    (unlisted : id ∉ tables.lists.map Blacklist.id) : tables.importedRows id = [] := by
  apply List.filter_eq_nil_iff.mpr
  intro row member imported
  exact unlisted (refers row member id (of_decide_eq_true imported))

/-- Removing a blacklist keeps the references exactly when nothing refers to it. -/
theorem refersToLists_deleteBlacklist_iff (refers : RefersToLists tables)
    (removed : tables.deleteBlacklist id = some after) :
    RefersToLists after ↔ tables.importedRows id = [] := by
  obtain ⟨lists, deleted, rfl⟩ := Option.map_eq_some_iff.mp removed
  obtain rfl := deleteWhere_eq_some deleted
  constructor
  · intro kept
    apply List.filter_eq_nil_iff.mpr
    intro row member imported
    obtain ⟨list, found, same⟩ := List.mem_map.mp (kept row member id (of_decide_eq_true imported))
    have apart := (List.mem_filter.mp found).2
    simp [same] at apart
  · intro unused row member other imported
    obtain ⟨list, listed, rfl⟩ := List.mem_map.mp (refers row member other imported)
    have different : list.id ≠ id := by
      intro same
      rw [same] at imported
      exact List.filter_eq_nil_iff.mp unused row member (decide_eq_true imported)
    exact List.mem_map_of_mem (List.mem_filter.mpr ⟨listed, by simpa using different⟩)

theorem removeBlacklist_iff (refers : RefersToLists tables) (id : Int) :
    RefersToLists ((cliSystem text isDigit).next tables (.blacklistRemove id)) ↔
      tables.importedRows id = [] := by
  simp only [cliSystem, runCommand, removeBlacklist]
  cases removed : tables.deleteBlacklist id with
  | some after =>
      simp only [removalResult]
      exact refersToLists_deleteBlacklist_iff refers removed
  | none =>
      simp only [removalResult]
      refine iff_of_true refers (refers.importedRows_nil fun listed => ?_)
      obtain ⟨list, member, rfl⟩ := List.mem_map.mp listed
      have unmatched := deleteWhere_eq_none (Option.map_eq_none_iff.mp removed) list member
      simp at unmatched

theorem refersToLists_next_iff (refers : RefersToLists tables) (command : CliCommand) :
    RefersToLists ((cliSystem text isDigit).next tables command) ↔ RemovesUnused tables command := by
  cases command with
  | blacklistAdd url type interval =>
      refine iff_of_true ?_ trivial
      simp only [cliSystem, runCommand]
      cases added : addBlacklist url type interval tables with
      | error error => exact refers
      | ok after =>
          obtain ⟨bans, list, lists⟩ := addBlacklist_eq_ok added
          apply refers.of_subset (by rw [bans]; exact List.Subset.refl _)
          rw [lists, List.map_append]
          exact List.subset_append_left _ _
  | blacklistRemove id => exact removeBlacklist_iff refers id
  | blacklistSync round => exact iff_of_true (refers.syncAll isDigit round) trivial
  | banIpAdd arguments =>
      refine iff_of_true ?_ trivial
      simp only [cliSystem, runCommand, withBans]
      cases added : banIpAdd text arguments tables.bans with
      | error error => exact refers
      | ok bans =>
          obtain ⟨-, banType, -, rfl⟩ := banIpAdd_eq_ok added
          refine refers.insertBannedIp _ _ _ _ (fun other absent => ?_) banType
          cases absent
  | banIpRemove id =>
      refine iff_of_true ?_ trivial
      simp only [cliSystem, runCommand, withBans]
      cases removed : banIpRemove id tables.bans with
      | error error => exact refers
      | ok bans =>
          refine refers.of_subset ?_ (List.Subset.refl _)
          have deleted := removalResult_eq_ok removed
          obtain ⟨rows, kept, rfl⟩ := Option.map_eq_some_iff.mp deleted
          obtain rfl := deleteWhere_eq_some kept
          exact List.filter_subset_self _

/-- The runs in which every imported range belongs to a blacklist are those that
remove a blacklist only when it has no ranges. -/
theorem run_refersToLists_iff {commands : List CliCommand} :
    ((cliSystem text isDigit).restrict ((cliSystem text isDigit).leadsTo RefersToLists)).Run .empty
      commands tables ↔
    ((cliSystem text isDigit).restrict RemovesUnused).Run .empty commands tables := by
  have initially : RefersToLists .empty := nofun
  exact System.run_keeps_iff initially fun _ command refers _ =>
    refersToLists_next_iff refers command

def removedCommands : List CliCommand :=
  [.blacklistRemove 1, .blacklistSync listRound,
    .blacklistAdd "http://localhost/list".toList 1 86400]

/-- A blacklist is added, synchronised and removed: its range stays. -/
theorem removed_blacklist_still_bans :
    (cliSystem silentText Char.isDigit).Run .empty removedCommands
        ((cliSystem silentText Char.isDigit).after .empty removedCommands) ∧
      ¬RefersToLists ((cliSystem silentText Char.isDigit).after .empty removedCommands) := by
  refine ⟨.of_admits ⟨⟨⟨trivial, trivial⟩, trivial⟩, trivial⟩, fun refers => ?_⟩
  have listed := refers importedRange (List.mem_of_mem_head? rfl) 1 rfl
  revert listed
  decide +kernel

end Filehost.Blacklist
