import Filehost.Blacklist.Sync

namespace Filehost.Blacklist

open Filehost.Data Filehost.Database Filehost.Ip

/-! # Rounds over all blacklists

A round starts a call for every blacklist that is due and runs them
concurrently.  Each statement is a step of one call. -/

def isDue (list : Blacklist) (now : Int) : Bool :=
  list.lastUpdate.all fun last => decide (asI64 list.updateIntervalSeconds ≤ now - last)

/-- What a round meets: the clock when each blacklist is checked and when its
update is stamped, the answers of the sources, and the order of the steps. -/
structure Round where
  checkedAt : Int → Int
  stampedAt : Int → Int
  answers : Int → FetchAnswer
  schedule : List Int

structure RoundState where
  tables : BlacklistTables
  stages : Int → Option SyncStage

def dueIn (round : Round) (tables : BlacklistTables) (id : Int) : Bool :=
  tables.lists.any fun list => list.id = id && isDue list (round.checkedAt id)

def RoundState.begin (round : Round) (tables : BlacklistTables) : RoundState :=
  ⟨tables, fun id => if dueIn round tables id then some .started else none⟩

def RoundState.advance (isDigit : Char → Bool) (round : Round) (state : RoundState) (id : Int) :
    RoundState :=
  match state.stages id with
  | none => state
  | some stage =>
      let (stage, tables) :=
        syncStep isDigit (round.answers id) id (round.stampedAt id) state.tables stage
      ⟨tables, Function.update state.stages id (some stage)⟩

def syncAll (isDigit : Char → Bool) (round : Round) (tables : BlacklistTables) : RoundState :=
  round.schedule.foldl (RoundState.advance isDigit round) (.begin round tables)

/-- The last response of a source that was a success, and when it was stamped. -/
structure Latest where
  body : List Char
  stampedAt : Int

structure RoundsState where
  tables : BlacklistTables
  latest : Int → Option Latest

def isSuccess (status : Nat) : Bool := 200 ≤ status && status < 300

def latestAfter (round : Round) (state : RoundsState) (id : Int) : Option Latest :=
  match round.answers id with
  | .response status body =>
      if dueIn round state.tables id && isSuccess status then some ⟨body, round.stampedAt id⟩
      else state.latest id
  | .transportError => state.latest id

def roundSystem (isDigit : Char → Bool) : System RoundsState Round where
  enabled state round := ∀ id stage,
    (syncAll isDigit round state.tables).stages id = some stage → stage.finished = true
  next state round := ⟨(syncAll isDigit round state.tables).tables, latestAfter round state⟩

def rowRange (row : BannedIpRange) : List UInt8 × List UInt8 := (row.startIp, row.endIp)

def IpRangeEntry.range (entry : IpRangeEntry) : List UInt8 × List UInt8 :=
  (toDbBytes entry.start, toDbBytes entry.stop)

def parsedRanges (isDigit : Char → Bool) (body : List Char) : List (List UInt8 × List UInt8) :=
  (parseBody isDigit body).map IpRangeEntry.range

def importedRanges (tables : BlacklistTables) (id : Int) : List (List UInt8 × List UInt8) :=
  (tables.importedRows id).map rowRange

/-- The blacklist has the ranges of its last successful response, and was last
updated by it. -/
def LatestImportedAt (isDigit : Char → Bool) (state : RoundsState) (id : Int) : Prop :=
  ∀ list, state.tables.getBlacklistById id = some list →
    (importedRanges state.tables id).Perm
        ((state.latest id).elim [] fun latest => parsedRanges isDigit latest.body) ∧
      list.lastUpdate = (state.latest id).map Latest.stampedAt

def LatestImported (isDigit : Char → Bool) (state : RoundsState) : Prop :=
  ∀ id, LatestImportedAt isDigit state id

/-- An error response reads as the ranges that are there already, and is stamped
with the time that is there already. -/
def HarmlessErrorsAt (isDigit : Char → Bool) (state : RoundsState) (round : Round) (id : Int) :
    Prop :=
  ∀ list, state.tables.getBlacklistById id = some list → dueIn round state.tables id = true →
    ∀ status body, round.answers id = .response status body → isSuccess status = false →
      (importedRanges state.tables id).Perm (parsedRanges isDigit body) ∧
        list.lastUpdate = some (round.stampedAt id)

def HarmlessErrors (isDigit : Char → Bool) (state : RoundsState) (round : Round) : Prop :=
  ∀ id, HarmlessErrorsAt isDigit state round id

variable {isDigit : Char → Bool} {round : Round} {start tables after : BlacklistTables}
  {state : RoundState} {answer : FetchAnswer} {id : Int}

theorem Untouched.trans (first : Untouched id start tables) (second : Untouched id tables after) :
    Untouched id start after :=
  ⟨second.rows.trans first.rows, second.list.trans first.list⟩

theorem Progress.frame {stage : SyncStage} (progress : Progress isDigit answer id start tables stage)
    (untouched : Untouched id tables after) : Progress isDigit answer id start after stage := by
  cases stage with
  | started => exact Untouched.trans progress untouched
  | found list => exact ⟨progress.1.trans untouched, progress.2⟩
  | fetched banType entries => exact ⟨progress.1.trans untouched, progress.2⟩
  | inserting banType entries count =>
      obtain ⟨imports, list, described⟩ := progress
      refine ⟨?_, untouched.list.trans list, described⟩
      rwa [Imports, untouched.rows]
  | synced banType entries stampedAt =>
      obtain ⟨imports, list, described⟩ := progress
      refine ⟨?_, untouched.list.trans list, described⟩
      rwa [Imports, untouched.rows]
  | failed => exact ⟨progress.1.trans untouched, progress.2⟩

def StampedBy (round : Round) (id : Int) (stage : SyncStage) : Prop :=
  ∀ banType entries stampedAt, stage = .synced banType entries stampedAt →
    stampedAt = round.stampedAt id

theorem StampedBy.step {stage : SyncStage} (stamped : StampedBy round id stage) :
    StampedBy round id
      (syncStep isDigit answer id (round.stampedAt id) tables stage).1 := by
  intro banType entries stampedAt same
  cases stage with
  | started => cases lookup : tables.getBlacklistById id <;> simp [syncStep, lookup] at same
  | found list => cases fetched : fetchIpRanges isDigit answer <;> simp [syncStep, fetched] at same
  | fetched banType entries => simp [syncStep] at same
  | inserting banType entries count =>
      cases next : entries[count]? with
      | some entry => simp [syncStep, next] at same
      | none =>
          simp only [syncStep, next, SyncStage.synced.injEq] at same
          exact same.2.2.symm
  | synced banType entries stampedAt => exact stamped _ _ _ same
  | failed => simp [syncStep] at same

/-- Where the call for one blacklist stands, and what it has done by then. -/
inductive RoundProgress (isDigit : Char → Bool) (round : Round) (start : BlacklistTables)
    (id : Int) (state : RoundState) : Prop
  | resting (absent : state.stages id = none) (due : dueIn round start id = false)
      (untouched : Untouched id start state.tables)
  | running (stage : SyncStage) (present : state.stages id = some stage)
      (due : dueIn round start id = true)
      (progress : Progress isDigit (round.answers id) id start state.tables stage)
      (stamped : StampedBy round id stage)

theorem RoundProgress.begin (isDigit : Char → Bool) (round : Round) (start : BlacklistTables)
    (id : Int) : RoundProgress isDigit round start id (.begin round start) := by
  cases due : dueIn round start id with
  | false => exact .resting (by simp [RoundState.begin, due]) due ⟨rfl, rfl⟩
  | true => exact .running .started (by simp [RoundState.begin, due]) due ⟨rfl, rfl⟩ nofun

theorem RoundProgress.advance (progress : RoundProgress isDigit round start id state)
    (moved : Int) : RoundProgress isDigit round start id (state.advance isDigit round moved) := by
  unfold RoundState.advance
  cases found : state.stages moved with
  | none => exact progress
  | some stage =>
      by_cases same : id = moved
      · subst same
        cases progress with
        | resting absent due untouched => exact absurd (absent.symm.trans found) nofun
        | running current present due progress stamped =>
            obtain rfl : current = stage := Option.some.inj (present.symm.trans found)
            exact .running _ (Function.update_self ..) due progress.step stamped.step
      · have untouched := (syncStep_change isDigit (round.answers moved) moved
          (round.stampedAt moved) state.tables stage).untouched same
        cases progress with
        | resting absent due kept =>
            exact .resting ((Function.update_of_ne same ..).trans absent) due
              (kept.trans untouched)
        | running current present due progress stamped =>
            exact .running current ((Function.update_of_ne same ..).trans present) due
              (progress.frame untouched) stamped

/-- Whatever holds when a round begins and survives each of its steps holds when
it ends. -/
theorem syncAll_invariant {invariant : RoundState → Prop} (begun : invariant (.begin round start))
    (advance : ∀ state moved, invariant state → invariant (state.advance isDigit round moved)) :
    invariant (syncAll isDigit round start) := by
  unfold syncAll
  generalize RoundState.begin round start = state at begun ⊢
  induction round.schedule generalizing state with
  | nil => exact begun
  | cons moved rest ih => exact ih _ (advance state moved begun)

theorem syncAll_progress (isDigit : Char → Bool) (round : Round) (start : BlacklistTables)
    (id : Int) : RoundProgress isDigit round start id (syncAll isDigit round start) := by
  apply syncAll_invariant (.begin isDigit round start id)
  exact fun _ moved progress => progress.advance moved

theorem dueIn_found (due : dueIn round start id = true) :
    ∃ list, start.getBlacklistById id = some list := by
  obtain ⟨list, member, matched⟩ := List.any_eq_true.mp due
  have named : decide (list.id = id) = true := (Bool.and_eq_true_iff.mp matched).1
  exact Option.isSome_iff_exists.mp (List.find?_isSome.mpr ⟨list, member, named⟩)

/-- The outcome of a completed round for one blacklist. -/
theorem syncAll_spec (completed : ∀ stage,
    (syncAll isDigit round start).stages id = some stage → stage.finished = true) :
    (dueIn round start id = false ∨ round.answers id = .transportError) ∧
        Untouched id start (syncAll isDigit round start).tables ∨
      ∃ status body banType, dueIn round start id = true ∧
        round.answers id = .response status body ∧
        Imports id banType (parseBody isDigit body) (syncAll isDigit round start).tables ∧
        (syncAll isDigit round start).tables.getBlacklistById id =
          (start.setLastUpdate id (round.stampedAt id)).getBlacklistById id := by
  cases syncAll_progress isDigit round start id with
  | resting _ due untouched => exact .inl ⟨.inl due, untouched⟩
  | running stage present due progress stamped =>
      have finished := completed stage present
      cases stage with
      | started => cases finished
      | found list => cases finished
      | fetched banType entries => cases finished
      | inserting banType entries count => cases finished
      | synced banType entries stampedAt =>
          obtain ⟨imports, list, described⟩ := progress
          rw [stamped _ _ _ rfl] at list
          have fetched := described.fetched
          cases answer : round.answers id with
          | transportError =>
              rw [answer] at fetched
              cases fetched
          | response status body =>
              rw [answer] at fetched
              cases fetched
              exact .inr ⟨status, body, banType, due, rfl, imports, list⟩
      | failed =>
          obtain ⟨untouched, missing | unreachable⟩ := progress
          · obtain ⟨list, found⟩ := dueIn_found due
            exact absurd (missing.symm.trans found) nofun
          · refine .inl ⟨.inr ?_, untouched⟩
            cases answer : round.answers id with
            | transportError => rfl
            | response status body =>
                rw [answer] at unreachable
                cases unreachable

theorem importedRanges_of_imports {banType : BanType} {entries : List IpRangeEntry}
    (imports : Imports id banType entries tables) :
    importedRanges tables id = entries.map IpRangeEntry.range := by
  have ranges := congrArg (List.map fun row : RangeColumns => (row.startIp, row.endIp)) imports
  rw [List.map_map, List.map_map] at ranges
  exact ranges

theorem getBlacklistById_stamped {list : Blacklist} (found : start.getBlacklistById id = some list)
    (now : Int) :
    (start.setLastUpdate id now).getBlacklistById id =
      some { list with lastUpdate := some now } := by
  have named : list.id = id := by simpa using List.find?_some found
  rw [BlacklistTables.getBlacklistById_setLastUpdate, found, Option.map_some, if_pos named]

variable {state : RoundsState}

theorem latestAfter_of_skipped
    (skipped : dueIn round state.tables id = false ∨ round.answers id = .transportError) :
    latestAfter round state id = state.latest id := by
  unfold latestAfter
  rcases skipped with due | unreachable
  · cases round.answers id <;> simp [due]
  · rw [unreachable]

theorem latestAfter_of_response {status : Nat} {body : List Char}
    (due : dueIn round state.tables id = true)
    (answered : round.answers id = .response status body) :
    latestAfter round state id =
      if isSuccess status then some ⟨body, round.stampedAt id⟩ else state.latest id := by
  simp [latestAfter, answered, due]

theorem latestImportedAt_of_skipped (holds : LatestImportedAt isDigit state id)
    (skipped : dueIn round state.tables id = false ∨ round.answers id = .transportError)
    (untouched : Untouched id state.tables (syncAll isDigit round state.tables).tables) :
    LatestImportedAt isDigit ((roundSystem isDigit).next state round) id := by
  intro list found
  obtain ⟨ranged, dated⟩ := holds list (untouched.list.symm.trans found)
  have ranges : importedRanges (syncAll isDigit round state.tables).tables id =
      importedRanges state.tables id := congrArg (List.map rowRange) untouched.rows
  simp only [roundSystem, ranges, latestAfter_of_skipped skipped]
  exact ⟨ranged, dated⟩

/-- What the property comes to once the ranges of a response are in. -/
theorem latestImportedAt_synced {body : List Char} {banType : BanType} {before : Blacklist}
    (present : state.tables.getBlacklistById id = some before)
    (imports : Imports id banType (parseBody isDigit body)
      (syncAll isDigit round state.tables).tables)
    (stamped : (syncAll isDigit round state.tables).tables.getBlacklistById id =
      (state.tables.setLastUpdate id (round.stampedAt id)).getBlacklistById id) :
    LatestImportedAt isDigit ((roundSystem isDigit).next state round) id ↔
      (parsedRanges isDigit body).Perm ((latestAfter round state id).elim [] fun latest =>
          parsedRanges isDigit latest.body) ∧
        some (round.stampedAt id) = (latestAfter round state id).map Latest.stampedAt := by
  rw [getBlacklistById_stamped present] at stamped
  simp only [LatestImportedAt, roundSystem, stamped, importedRanges_of_imports imports,
    Option.some.injEq, forall_eq']
  rfl

theorem latestImportedAt_next_iff (holds : LatestImportedAt isDigit state id)
    (completed : (roundSystem isDigit).enabled state round) :
    LatestImportedAt isDigit ((roundSystem isDigit).next state round) id ↔
      HarmlessErrorsAt isDigit state round id := by
  rcases syncAll_spec (completed id) with
    ⟨skipped, untouched⟩ | ⟨status, body, banType, due, answered, imports, stamped⟩
  · apply iff_of_true (latestImportedAt_of_skipped holds skipped untouched)
    intro list _ due status body answered _
    rcases skipped with rest | unreachable
    · exact absurd (rest.symm.trans due) nofun
    · exact absurd (unreachable.symm.trans answered) nofun
  · obtain ⟨before, present⟩ := dueIn_found due
    obtain ⟨ranged, dated⟩ := holds before present
    rw [latestImportedAt_synced present imports stamped, latestAfter_of_response due answered]
    cases success : isSuccess status with
    | true =>
        refine iff_of_true ⟨.refl _, rfl⟩ ?_
        intro list _ _ other text same failed
        cases answered.symm.trans same
        exact absurd (success.symm.trans failed) nofun
    | false =>
        rw [if_neg Bool.false_ne_true, ← dated]
        constructor
        · intro same list found _ other text response _
          cases answered.symm.trans response
          cases present.symm.trans found
          exact ⟨ranged.trans same.1.symm, same.2.symm⟩
        · intro harmless
          obtain ⟨same, time⟩ := harmless before present due status body answered success
          exact ⟨same.symm.trans ranged, time.symm⟩

/-- Before any round no blacklist has brought in a range. -/
def NeverSynced (tables : BlacklistTables) : Prop :=
  ∀ id list, tables.getBlacklistById id = some list →
    tables.importedRows id = [] ∧ list.lastUpdate = none

/-- The runs in which every blacklist keeps the ranges of its last successful
response are those in which every error response is harmless. -/
theorem run_latestImported_iff (never : NeverSynced start) {events : List Round} :
    ((roundSystem isDigit).restrict
        ((roundSystem isDigit).leadsTo (LatestImported isDigit))).Run
      ⟨start, fun _ => none⟩ events state ↔
    ((roundSystem isDigit).restrict (HarmlessErrors isDigit)).Run
      ⟨start, fun _ => none⟩ events state := by
  have initially : LatestImported isDigit ⟨start, fun _ => none⟩ := by
    intro id list found
    obtain ⟨empty, fresh⟩ := never id list found
    simp [importedRanges, empty, fresh]
  apply System.run_keeps_iff initially
  intro state round holds completed
  exact forall_congr' fun id => latestImportedAt_next_iff (holds id) completed

theorem stages_of_resting (rest : dueIn round start id = false) :
    (syncAll isDigit round start).stages id = none := by
  cases syncAll_progress isDigit round start id with
  | resting absent _ _ => exact absent
  | running _ _ due _ _ => exact absurd (rest.symm.trans due) nofun

def newTables : BlacklistTables :=
  ⟨⟨[], 1, [], [], [], []⟩, [⟨1, "http://localhost/list".toList, .readOnly, none, 86400⟩], 2⟩

theorem newTables_neverSynced : NeverSynced newTables := by
  intro id list found
  have member := List.mem_of_find?_eq_some found
  simp only [newTables, List.mem_singleton] at member
  subst member
  exact ⟨rfl, rfl⟩

def listRound : Round := ⟨fun _ => 0, fun _ => 0, fun _ => .response 200 "10.0.0.1".toList,
  [1, 1, 1, 1, 1]⟩

/-- A day later the server behind the source is down. -/
def outageRound : Round := ⟨fun _ => 86400, fun _ => 86400, fun _ => .response 503 [], [1, 1, 1, 1]⟩

theorem completed_of_first {state : RoundsState} {list : Blacklist}
    (only : state.tables.lists = [list])
    (finished : ∀ stage, (syncAll isDigit round state.tables).stages list.id = some stage →
      stage.finished = true) : (roundSystem isDigit).enabled state round := by
  intro id stage present
  by_cases first : id = list.id
  · subst first
    exact finished stage present
  · have rest : dueIn round state.tables id = false := by simp [dueIn, only, Ne.symm first]
    exact absurd ((stages_of_resting rest).symm.trans present) nofun

theorem outage_lifts_bans :
    ∃ state, (roundSystem Char.isDigit).Run ⟨newTables, fun _ => none⟩ [outageRound, listRound] state ∧
      ¬LatestImported Char.isDigit state := by
  refine ⟨_, .step (.step .start ?_) ?_, fun latest => ?_⟩
  · apply completed_of_first rfl
    intro stage present
    cases present
    rfl
  · apply completed_of_first rfl
    intro stage present
    cases present
    rfl
  · have kept := (latest 1 _ rfl).1.length_eq
    revert kept
    decide +kernel

theorem run_latestImported_iff_newTables :
    ((roundSystem Char.isDigit).restrict
        ((roundSystem Char.isDigit).leadsTo (LatestImported Char.isDigit))).Run
      ⟨newTables, fun _ => none⟩ [outageRound, listRound]
      ((roundSystem Char.isDigit).after ⟨newTables, fun _ => none⟩ [outageRound, listRound]) ↔
    ((roundSystem Char.isDigit).restrict (HarmlessErrors Char.isDigit)).Run
      ⟨newTables, fun _ => none⟩ [outageRound, listRound]
      ((roundSystem Char.isDigit).after ⟨newTables, fun _ => none⟩ [outageRound, listRound]) :=
  run_latestImported_iff newTables_neverSynced

end Filehost.Blacklist
