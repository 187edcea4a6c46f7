import Filehost.Cache.SharedCells
import Filehost.Upload.Request
import Mathlib.Data.Rat.Floor

namespace Filehost.Cache

open Filehost.Data Filehost.Database Filehost.Ip Filehost.Store Filehost.Upload

/-! # Suspects

An address is suspect while an upload of the last week that counts as its own has a
high score.  A scan writes the score of an upload to the table, then tells the cell
of the uploader's address. -/

structure SuspectSettings where
  ttl : ℚ
  nsfwThreshold : ℚ

/-- The column `nsfw_score`, by the primary key. -/
abbrev Scores := Uuid → Option ℚ

def lastWeek (now : Int) (row : Upload) : Bool := now - 7 * secondsPerDay < row.uploadTimestamp

def hasNsfwUploadLastWeek (table : Uploads) (scores : Scores) (client : IpAddr) (now : Int)
    (minScore : ℚ) : Bool :=
  table.rows.any fun row =>
    inQuotaRange client row.uploaderIp && lastWeek now row &&
      (scores row.id).any fun score => minScore ≤ score

/-- Where a scan stands after its upload was classified.  It remembers the tick at
which it wrote the score, `none` where that failed. -/
inductive ScanStage where
  | classified
  | recorded (ip : IpAddr) (recordedAt : Option Nat)
  | storing (ip : IpAddr) (recordedAt : Option Nat)
  | marked (ip : IpAddr) (recordedAt : Option Nat) (markedAt : Nat)
  | ended
deriving DecidableEq

inductive SuspectTask where
  | idle
  | abandoned
  | check (ip : IpAddr) (began : Nat) (stage : CheckStage Bool)
  | scan (id : Uuid) (uploaderIp : Option IpAddr) (score : ℚ) (stage : ScanStage)
deriving DecidableEq

/-- `scoredAt` remembers when each score was last written. -/
structure SuspectState where
  clock : ℚ
  tick : Nat
  uploads : Uploads
  scores : Scores
  scoredAt : Uuid → Option Nat
  cell : Cell IpAddr Bool
  tasks : Nat → SuspectTask

/-- The last three are updates of the database by others, the command that scans
again among them. -/
inductive SuspectEvent where
  | beginCheck (task : Nat) (ip : IpAddr)
  | beginScan (task : Nat) (id : Uuid) (uploaderIp : Option IpAddr) (score : ℚ)
  | advance (task : Nat)
  | failUpdate (task : Nat)
  | abandon (task : Nat)
  | elapse (duration : ℚ)
  | insertUploadRow (row : Upload)
  | deleteUpload (id : Uuid)
  | rescore (id : Uuid) (score : ℚ)

def SuspectTask.finished : SuspectTask → Bool
  | .idle | .abandoned | .check _ _ (.answered _) | .scan _ _ _ (.marked _ _ _)
  | .scan _ _ _ .ended => true
  | _ => false

def SuspectTask.classified : SuspectTask → Bool
  | .scan _ _ _ .classified => true
  | _ => false

/-- What follows the update of the score, whether it failed or not. -/
def afterUpdate (settings : SuspectSettings) (uploaderIp : Option IpAddr) (score : ℚ)
    (recordedAt : Option Nat) : ScanStage :=
  match uploaderIp with
  | some ip => if settings.nsfwThreshold ≤ score then .recorded ip recordedAt else .ended
  | none => .ended

namespace SuspectState

def initial (uploads : Uploads) (scores : Scores) (clock : ℚ) : SuspectState :=
  ⟨clock, 0, uploads, scores, fun _ => none, .new, fun _ => .idle⟩

/-- `NOW()`, in whole seconds. -/
def databaseNow (state : SuspectState) : Int := ⌊state.clock⌋

def lookup (settings : SuspectSettings) (state : SuspectState) (ip : IpAddr) : Option (Fetched Bool) :=
  state.cell.entries.lookup settings.ttl state.clock ip

def move (state : SuspectState) (task : Nat) (stage : SuspectTask) (cell : Cell IpAddr Bool) :
    SuspectState :=
  { state with tick := state.tick + 1, cell, tasks := Function.update state.tasks task stage }

def updateNsfwScore (state : SuspectState) (id : Uuid) (score : ℚ) : SuspectState :=
  { state with
    scores := Function.update state.scores id (some score)
    scoredAt := Function.update state.scoredAt id (some state.tick) }

/-- `get_or_refresh` around `has_nsfw_upload_last_week`. -/
def advanceCheck (settings : SuspectSettings) (state : SuspectState) (task : Nat) (ip : IpAddr)
    (began : Nat) (stage : CheckStage Bool) : SuspectState :=
  match stage with
  | .fetching _ =>
      let found := hasNsfwUploadLastWeek state.uploads state.scores ip state.databaseNow
        settings.nsfwThreshold
      state.move task (.check ip began (.fetched ⟨found, state.tick⟩)) state.cell
  | stage =>
      let next := state.cell.getOrRefresh settings.ttl state.clock task ip id id stage
      state.move task (.check ip began next.1) next.2

/-- The score is written first, then the cell is told, under its write lock. -/
def advanceScan (settings : SuspectSettings) (state : SuspectState) (task : Nat) (id : Uuid)
    (uploaderIp : Option IpAddr) (score : ℚ) (stage : ScanStage) : SuspectState :=
  let cell := state.cell
  match stage with
  | .classified =>
      (state.updateNsfwScore id score).move task
        (.scan id uploaderIp score (afterUpdate settings uploaderIp score (some state.tick))) cell
  | .recorded ip recordedAt =>
      state.move task (.scan id uploaderIp score (.storing ip recordedAt)) (cell.write task)
  | .storing ip recordedAt =>
      state.move task (.scan id uploaderIp score (.marked ip recordedAt state.tick))
        ((cell.insert ip ⟨state.clock, ⟨true, state.tick⟩⟩).release task)
  | .marked _ _ _ | .ended => state

/-- A scan whose update failed goes on. -/
def failUpdate (settings : SuspectSettings) (state : SuspectState) (task : Nat) : SuspectState :=
  match state.tasks task with
  | .scan id uploaderIp score .classified =>
      state.move task (.scan id uploaderIp score (afterUpdate settings uploaderIp score none))
        state.cell
  | _ => state

def ready (state : SuspectState) : SuspectTask → Prop
  | .check _ _ .started => state.cell.admitsReader
  | .check _ _ .missed | .scan _ _ _ (.recorded _ _) => state.cell.admitsWriter
  | task => task.finished = false

instance (state : SuspectState) : (task : SuspectTask) → Decidable (state.ready task)
  | .idle | .abandoned => inferInstanceAs (Decidable (_ = false))
  | .check _ _ stage =>
      match stage with
      | .started => inferInstanceAs (Decidable (_ = none))
      | .missed => inferInstanceAs (Decidable (_ = none ∧ _ = ∅))
      | .reading | .writing | .fetching _ | .fetched _ | .retaining _ | .answered _ =>
          inferInstanceAs (Decidable (_ = false))
  | .scan _ _ _ stage =>
      match stage with
      | .recorded _ _ => inferInstanceAs (Decidable (_ = none ∧ _ = ∅))
      | .classified | .storing _ _ | .marked _ _ _ | .ended => inferInstanceAs (Decidable (_ = false))

/-- A scan is of an upload that was inserted, and of its uploader. -/
def Uploaded (state : SuspectState) (id : Uuid) (uploaderIp : Option IpAddr) : Prop :=
  ∀ ip ∈ uploaderIp, ∃ row ∈ state.uploads.rows, row.id = id ∧ row.uploaderIp = toDbBytes ip

instance (state : SuspectState) (id : Uuid) (uploaderIp : Option IpAddr) :
    Decidable (state.Uploaded id uploaderIp) :=
  inferInstanceAs (Decidable (∀ ip ∈ uploaderIp, ∃ row ∈ state.uploads.rows, _ ∧ _))

end SuspectState

def suspectSystem (settings : SuspectSettings) : System SuspectState SuspectEvent where
  enabled state
    | .beginCheck task _ => state.tasks task = .idle
    | .beginScan task id uploaderIp _ => state.tasks task = .idle ∧ state.Uploaded id uploaderIp
    | .advance task => state.ready (state.tasks task)
    | .failUpdate task => (state.tasks task).classified = true
    | .abandon task => (state.tasks task).finished = false
    | .elapse duration => 0 ≤ duration
    | .insertUploadRow row => row.uploadTimestamp = state.databaseNow ∧
        (state.uploads.insertUploadRow row).isSome = true
    | .deleteUpload _ | .rescore _ _ => True
  next state event :=
    let tick := state.tick + 1
    match event with
    | .beginCheck task ip => state.move task (.check ip state.tick .started) state.cell
    | .beginScan task id uploaderIp score =>
        state.move task (.scan id uploaderIp score .classified) state.cell
    | .advance task =>
        match state.tasks task with
        | .check ip began stage => state.advanceCheck settings task ip began stage
        | .scan id uploaderIp score stage => state.advanceScan settings task id uploaderIp score stage
        | .idle | .abandoned => state
    | .failUpdate task => state.failUpdate settings task
    | .abandon task => state.move task .abandoned (state.cell.release task)
    | .elapse duration => { state with tick, clock := state.clock + duration }
    | .insertUploadRow row =>
        { state with
          tick
          uploads := (state.uploads.insertUploadRow row).getD state.uploads
          scores := Function.update state.scores row.id none }
    | .deleteUpload id =>
        { state with tick, uploads := state.uploads.setDeleted id state.databaseNow }
    | .rescore id score => { state.updateNsfwScore id score with tick }

instance (settings : SuspectSettings) (state : SuspectState) :
    (event : SuspectEvent) → Decidable ((suspectSystem settings).enabled state event)
  | .beginCheck task _ => inferInstanceAs (Decidable (state.tasks task = .idle))
  | .beginScan task id uploaderIp _ =>
      inferInstanceAs (Decidable (state.tasks task = .idle ∧ state.Uploaded id uploaderIp))
  | .advance task => inferInstanceAs (Decidable (state.ready (state.tasks task)))
  | .failUpdate task => inferInstanceAs (Decidable ((state.tasks task).classified = true))
  | .abandon task => inferInstanceAs (Decidable ((state.tasks task).finished = false))
  | .elapse duration => inferInstanceAs (Decidable (0 ≤ duration))
  | .insertUploadRow _ => inferInstanceAs (Decidable (_ ∧ _))
  | .deleteUpload _ | .rescore _ _ => .isTrue trivial

namespace SuspectState

/-! ## What a mark promises -/

/-- The upload is of the last week, and its score is the one that was written then. -/
def Recent (state : SuspectState) (id : Uuid) (recordedAt : Nat) : Prop :=
  state.scoredAt id = some recordedAt ∧
    ∃ row ∈ state.uploads.rows, row.id = id ∧ lastWeek state.databaseNow row = true

/-- A scan has recorded its score and told the cell of the address. -/
def StandingMark (state : SuspectState) (ip : IpAddr) (markedAt : Nat) : Prop :=
  ∃ task id uploaderIp score recordedAt,
    state.tasks task = .scan id uploaderIp score (.marked ip (some recordedAt) markedAt) ∧
      state.Recent id recordedAt

/-- Checks that begin after a mark are positive for every address that counts as
the uploader. -/
def SuspectAtOnce (state : SuspectState) : Prop :=
  ∀ ip markedAt, state.StandingMark ip markedAt → ∀ client, countedBy client ip →
    ∀ task began answer, state.tasks task = .check client began (.answered answer) →
      markedAt < began → answer.value = true

/-- A mark finds no young negative answer for another address of its uploader. -/
def NoneCleared (settings : SuspectSettings) (state : SuspectState) : SuspectEvent → Prop
  | .advance task => ∀ id uploaderIp score ip recordedAt,
      state.tasks task = .scan id uploaderIp score (.storing ip (some recordedAt)) →
      state.Recent id recordedAt → ∀ client, client ≠ ip → countedBy client ip →
        ∀ answer, state.lookup settings client = some answer → answer.value = true
  | _ => True

end SuspectState

end Filehost.Cache
