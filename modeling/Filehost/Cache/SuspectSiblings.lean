import Filehost.Cache.SuspectMarks

namespace Filehost.Cache

open Filehost.Data Filehost.Database Filehost.Ip Filehost.Store Filehost.Upload

/-! # Addresses of one uploader -/

def SuspectTask.storing : SuspectTask → Bool
  | .scan _ _ _ (.storing _ _) => true
  | _ => false

namespace SuspectState

variable {settings : SuspectSettings} {state : SuspectState} {task other : Nat} {client ip : IpAddr}

/-- A check that finds an answer gives it, and changes no table. -/
theorem check_of_lookup {answer : Fetched Bool} (idle : state.tasks other = .idle)
    (free : state.cell.writer = none) (found : state.lookup settings client = some answer) :
    ∃ final, (suspectSystem settings).Run state [.advance other, .advance other,
        .beginCheck other client] final ∧
      final.tasks other = .check client state.tick (.answered answer) ∧
      (∀ task, task ≠ other → final.tasks task = state.tasks task) ∧
      final.uploads = state.uploads ∧ final.scoredAt = state.scoredAt ∧
      final.clock = state.clock := by
  let begun := (suspectSystem settings).next state (.beginCheck other client)
  let reading := (suspectSystem settings).next begun (.advance other)
  have begunTask : begun.tasks other = .check client state.tick .started := Function.update_self ..
  have readingEq : reading = begun.advanceCheck settings other client state.tick .started :=
    next_check begunTask
  have readingTask : reading.tasks other = .check client state.tick .reading := by
    rw [readingEq]
    exact Function.update_self ..
  have readingFound : reading.lookup settings client = some answer := by
    rw [readingEq]
    exact found
  have finalEq : (suspectSystem settings).next reading (.advance other) =
      reading.move other (.check client state.tick (.answered answer))
        (reading.cell.release other) := by
    rw [lookup] at readingFound
    rw [next_check readingTask]
    simp only [advanceCheck, KeyedTtlCache.getOrRefresh, readingFound, id]
  refine ⟨_, .step (.step (.step .start idle) ?_) ?_, ?_, ?_, ?_, ?_, ?_⟩
  · change begun.ready (begun.tasks other)
    rw [begunTask]
    exact free
  · change reading.ready (reading.tasks other)
    rw [readingTask]
    rfl
  · change ((suspectSystem settings).next reading (.advance other)).tasks other = _
    rw [finalEq]
    exact Function.update_self ..
  · intro task different
    change ((suspectSystem settings).next reading (.advance other)).tasks task = _
    rw [finalEq, readingEq]
    simp [move, advanceCheck, begun, suspectSystem, different]
  · change ((suspectSystem settings).next reading (.advance other)).uploads = _
    rw [finalEq, readingEq]
    rfl
  · change ((suspectSystem settings).next reading (.advance other)).scoredAt = _
    rw [finalEq, readingEq]
    rfl
  · change ((suspectSystem settings).next reading (.advance other)).clock = _
    rw [finalEq, readingEq]
    rfl

def actor : SuspectEvent → Option Nat
  | .beginCheck task _ | .beginScan task _ _ _ | .advance task | .failUpdate task | .abandon task =>
      some task
  | .elapse _ | .insertUploadRow _ | .deleteUpload _ | .rescore _ _ => none

theorem tasks_advanceCheck {began : Nat} {stage : CheckStage Bool} (different : other ≠ task) :
    (state.advanceCheck settings task ip began stage).tasks other = state.tasks other := by
  unfold advanceCheck
  split
  · exact Function.update_of_ne different ..
  · exact Function.update_of_ne different ..

theorem tasks_advanceScan {id : Uuid} {uploaderIp : Option IpAddr} {score : ℚ} {stage : ScanStage}
    (different : other ≠ task) :
    (state.advanceScan settings task id uploaderIp score stage).tasks other = state.tasks other := by
  cases stage with
  | marked => rfl
  | ended => rfl
  | _ => exact Function.update_of_ne different ..

theorem tasks_next {event : SuspectEvent} (different : actor event ≠ some other) :
    ((suspectSystem settings).next state event).tasks other = state.tasks other := by
  have moved : ∀ task, some task ≠ some other → ∀ stage cell,
      (state.move task stage cell).tasks other = state.tasks other :=
    fun task different _ _ => Function.update_of_ne (fun same => different (congrArg some same.symm)) ..
  cases event with
  | beginCheck task ip => exact moved task different _ _
  | beginScan task id uploaderIp score => exact moved task different _ _
  | advance task =>
      have apart : other ≠ task := fun same => different (congrArg some same.symm)
      simp only [suspectSystem]
      split
      · exact tasks_advanceCheck apart
      · exact tasks_advanceScan apart
      · rfl
      · rfl
  | failUpdate task =>
      simp only [suspectSystem, failUpdate]
      split
      · exact moved task different _ _
      · rfl
  | abandon task => exact moved task different _ _
  | _ => rfl

/-- Tasks that were not begun yet. -/
theorem exists_idle {uploads : Uploads} {scores : Scores} {clock : ℚ} {events : List SuspectEvent}
    (run : (suspectSystem settings).Run (initial uploads scores clock) events state) :
    ∃ bound, ∀ task, bound ≤ task → state.tasks task = .idle := by
  induction run with
  | start => exact ⟨0, fun _ _ => rfl⟩
  | @step events state event _ _ ih =>
      obtain ⟨bound, idle⟩ := ih
      refine ⟨max bound ((actor event).elim 0 (· + 1)), fun task above => ?_⟩
      rw [tasks_next, idle task (le_of_max_le_left above)]
      intro acts
      rw [acts] at above
      have beyond : task + 1 ≤ task := le_of_max_le_right above
      omega

theorem negative_shows {id : Uuid} {uploaderIp : Option IpAddr} {score : ℚ} {recordedAt : Nat}
    {answer : Fetched Bool} (coherent : state.Coherent settings)
    (stands : state.tasks task = .scan id uploaderIp score (.storing ip (some recordedAt)))
    (recent : state.Recent id recordedAt) (different : client ≠ ip) (counted : countedBy client ip)
    (found : state.lookup settings client = some answer) (negative : answer.value ≠ true)
    (idle : state.tasks other = .idle) :
    ∃ events final, (suspectSystem settings).Run ((suspectSystem settings).next state (.advance task))
      events final ∧ ¬final.SuspectAtOnce := by
  have ok := coherent.tasks task
  rw [stands] at ok
  obtain ⟨-, held, -⟩ := ok
  have apart : other ≠ task := by
    rintro rfl
    rw [stands] at idle
    contradiction
  have free : (state.advanceScan settings task id uploaderIp score
      (.storing ip (some recordedAt))).cell.writer = none := by
    have writer : state.cell.writer = some task := held
    simp [advanceScan, move, KeyedTtlCache.release, writer, Option.filter]
  have still : (state.advanceScan settings task id uploaderIp score
      (.storing ip (some recordedAt))).lookup settings client = some answer :=
    (Entries.lookup_update_ne different).trans found
  obtain ⟨final, run, checked, others, uploads, scoredAt, clock⟩ :=
    check_of_lookup ((tasks_advanceScan apart).trans idle) free still
  rw [next_scan stands]
  refine ⟨_, final, run, fun property => negative ?_⟩
  have marked : final.tasks task =
      .scan id uploaderIp score (.marked ip (some recordedAt) state.tick) := by
    rw [others task apart.symm]
    exact Function.update_self ..
  have counts : final.Recent id recordedAt := by
    rw [Recent, uploads, scoredAt, databaseNow, clock]
    exact recent
  exact property ip state.tick ⟨task, id, uploaderIp, score, recordedAt, marked, counts⟩ client
    counted other _ answer checked (Nat.lt_succ_self _)

/-- Where no mark finds a young negative answer for another address of its uploader,
every check that begins after a mark is positive for as long as the upload counts.
A mark that finds one can be followed by a check that is not. -/
theorem suspect_at_once_exactly (settings : SuspectSettings) (uploads : Uploads) (scores : Scores)
    (clock : ℚ) :
    (∀ events state, ((suspectSystem settings).restrict (NoneCleared settings)).Run
        (initial uploads scores clock) events state → state.SuspectAtOnce) ∧
      ∀ events state event, ((suspectSystem settings).restrict (NoneCleared settings)).Run
        (initial uploads scores clock) events state → (suspectSystem settings).enabled state event →
          ¬state.NoneCleared settings event →
            ∃ later final, (suspectSystem settings).Run ((suspectSystem settings).next state event)
              later final ∧ ¬final.SuspectAtOnce := by
  constructor
  · intro events state run
    exact (coherent_of_run run).suspectAtOnce
  · intro events state event run _ cleared
    obtain ⟨bound, idle⟩ := exists_idle run.of_restrict
    cases event with
    | advance task =>
        simp only [NoneCleared, not_forall] at cleared
        obtain ⟨id, uploaderIp, score, ip, recordedAt, stands, recent, client, different, counted,
          answer, found, negative⟩ := cleared
        exact negative_shows (coherent_of_run run) stands recent different counted found negative
          (idle bound (le_refl bound))
    | _ => exact absurd trivial cleared

/-- Entries live a minute. -/
def minuteSettings : SuspectSettings := ⟨60, 1⟩

def neighbour (last : UInt8) : IpAddr :=
  .v6 ⟨[0x20, 0x01, 0x0d, 0xb8] ++ List.replicate 11 0 ++ [last], rfl⟩

def picture : Upload where
  id := .nil
  uploadTimestamp := 0
  expiryTimestamp := 86400
  deletedTimestamp := none
  originalName := "cat.png".toList
  slug := "aB3.png".toList
  fileSize := 10
  hash := none
  uploaderIp := toDbBytes (neighbour 1)
  contentType := none
  userAgent := none

def advanceTimes (task count : Nat) : List SuspectEvent := List.replicate count (.advance task)

def clearedFirst : List SuspectEvent :=
  [advanceTimes 2 2, [.beginCheck 2 (neighbour 2)],
    advanceTimes 1 3, [.beginScan 1 .nil (some (neighbour 1)) 1, .insertUploadRow picture],
    advanceTimes 0 7, [.beginCheck 0 (neighbour 2)]].flatten

def clearedState : SuspectState :=
  (suspectSystem minuteSettings).after (.initial .empty (fun _ => none) 0) clearedFirst

set_option maxRecDepth 4000 in
theorem cleared_neighbour_stays_cleared :
    (suspectSystem minuteSettings).Run (.initial .empty (fun _ => none) 0) clearedFirst
      clearedState ∧ ¬clearedState.SuspectAtOnce := by
  have marked : clearedState.tasks 1 =
      .scan .nil (some (neighbour 1)) 1 (.marked (neighbour 1) (some 10) 12) := by
    decide +kernel
  have checked : clearedState.tasks 2 =
      .check (neighbour 2) 13 (.answered ⟨false, 5⟩) := by decide +kernel
  refine ⟨.of_admits (by decide +kernel), fun property => ?_⟩
  have stands : clearedState.StandingMark (neighbour 1) 12 :=
    ⟨1, .nil, _, _, 10, marked, by decide +kernel, picture, by decide +kernel, rfl,
      by decide +kernel⟩
  have answer := property (neighbour 1) 12 stands (neighbour 2) (by decide) 2 13 _ checked (by decide)
  contradiction

/-- A step of no task that is about to tell the cell. -/
def TellsNothing (state : SuspectState) : SuspectEvent → Prop
  | .advance task => (state.tasks task).storing = false
  | _ => True

instance (state : SuspectState) : (event : SuspectEvent) → Decidable (state.TellsNothing event)
  | .advance task => inferInstanceAs (Decidable ((state.tasks task).storing = false))
  | .beginCheck _ _ | .beginScan _ _ _ _ | .failUpdate _ | .abandon _ | .elapse _
  | .insertUploadRow _ | .deleteUpload _ | .rescore _ _ => .isTrue trivial

theorem noneCleared_of_tellsNothing {settings : SuspectSettings} {state : SuspectState}
    {event : SuspectEvent} (quiet : state.TellsNothing event) : state.NoneCleared settings event := by
  cases event with
  | advance task =>
      intro id uploaderIp score ip recordedAt stands
      rw [TellsNothing, stands] at quiet
      contradiction
  | _ => trivial

theorem run_of_tellsNothing {settings : SuspectSettings} {start state : SuspectState}
    {events : List SuspectEvent}
    (run : ((suspectSystem settings).restrict TellsNothing).Run start events state) :
    ((suspectSystem settings).restrict (NoneCleared settings)).Run start events state := by
  induction run with
  | start => exact .start
  | step _ enabled ih => exact .step ih ⟨enabled.1, noneCleared_of_tellsNothing enabled.2⟩

abbrev minuteSystem : System SuspectState SuspectEvent := suspectSystem minuteSettings

def scanned : List SuspectEvent :=
  [advanceTimes 0 2, [.beginScan 0 .nil (some (neighbour 1)) 1, .insertUploadRow picture]].flatten

def scannedState : SuspectState := minuteSystem.after (.initial .empty (fun _ => none) 0) scanned

def checkedNext : List SuspectEvent := advanceTimes 1 7 ++ [.beginCheck 1 (neighbour 2)]

def checkedState : SuspectState :=
  minuteSystem.after (minuteSystem.next scannedState (.advance 0)) checkedNext

theorem run_checkedState :
    (minuteSystem.restrict (NoneCleared minuteSettings)).Run
      (.initial .empty (fun _ => none) 0) (checkedNext ++ .advance 0 :: scanned) checkedState := by
  have first : (minuteSystem.restrict (NoneCleared minuteSettings)).Run
      (.initial .empty (fun _ => none) 0) scanned scannedState :=
    run_of_tellsNothing (.of_admits (by decide +kernel))
  have cleared : scannedState.NoneCleared minuteSettings (.advance 0) := by
    intro _ _ _ _ _ _ _ client _ _ answer found
    have empty : scannedState.lookup minuteSettings client = none := rfl
    rw [empty] at found
    contradiction
  have enabled : minuteSystem.enabled scannedState (.advance 0) := by decide +kernel
  exact (first.step ⟨enabled, cleared⟩).append (run_of_tellsNothing (.of_admits (by decide +kernel)))

theorem suspect_at_once_exactly_neighbour : checkedState.SuspectAtOnce :=
  (suspect_at_once_exactly minuteSettings .empty (fun _ => none) 0).1 _ _ run_checkedState

end SuspectState

end Filehost.Cache
