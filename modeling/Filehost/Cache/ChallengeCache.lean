import Filehost.Cache.SharedCells
import Filehost.Ip.Address
import Mathlib.Algebra.Order.Field.Rat
import Mathlib.Tactic.Linarith

namespace Filehost.Cache

open Filehost.Data Filehost.Ip

/-! # Solved challenges

An address that solved a challenge has a row until it expires.  Tasks of one
process look at the row through a cell, and store in the cell what they have just
written.  Cell and rows go by one clock. -/

structure Moment where
  tick : Nat
  clock : ℚ
deriving DecidableEq

def Moment.later (moment : Moment) (duration : ℚ) : Moment :=
  ⟨moment.tick + 1, moment.clock + duration⟩

def Moment.next (moment : Moment) : Moment := ⟨moment.tick + 1, moment.clock⟩

structure ChallengeSettings where
  ttl : ℚ
  ttlNonneg : 0 ≤ ttl
  challengeVerifiedTtlSeconds : Nat

/-- When the row of an address expires. -/
abbrev VerifiedRows := List UInt8 → Option ℚ

def isIpChallengeVerified (rows : VerifiedRows) (now : ℚ) (ip : IpAddr) : Bool :=
  (rows (toDbBytes ip)).any fun expires => decide (now < expires)

def upsertChallengeVerifiedIp (rows : VerifiedRows) (now : ℚ) (ip : IpAddr) (ttlSeconds : Nat) :
    VerifiedRows :=
  Function.update rows (toDbBytes ip) (some (now + ttlSeconds))

/-- Where a call of `is_ip_verified` stands, with when it read the row or was answered. -/
abbrev VerifyStage := GetStage (Bool × Moment) (Bool × Moment)

/-- Where a call of `mark_ip_verified` stands. -/
inductive MarkStage where
  | arrived
  | upserted (upsertedAt : Moment)
  | storing (upsertedAt : Moment)
  | stored (upsertedAt : Moment)
  | returned (upsertedAt returnedAt : Moment)
deriving DecidableEq

inductive ChallengeTask where
  | idle
  | abandoned
  | check (ip : IpAddr) (began : Moment) (stage : VerifyStage)
  | mark (ip : IpAddr) (stage : MarkStage)
deriving DecidableEq

/-- `upserts` remembers when each row was last written. -/
structure ChallengeState where
  now : Moment
  rows : VerifiedRows
  cell : Cell IpAddr Bool
  tasks : Nat → ChallengeTask
  upserts : List UInt8 → Option Moment

inductive ChallengeEvent where
  | beginCheck (task : Nat) (ip : IpAddr)
  | beginMark (task : Nat) (ip : IpAddr)
  | advance (task : Nat)
  | abandon (task : Nat)
  | elapse (duration : ℚ)

def ChallengeEvent.marks (ip : IpAddr) : ChallengeEvent → Bool
  | .beginMark _ other => other = ip
  | _ => false

namespace ChallengeTask

def finished : ChallengeTask → Bool
  | .idle | .abandoned | .check _ _ (.answered _) | .mark _ (.returned _ _) => true
  | _ => false

def awaitsReader : ChallengeTask → Bool
  | .check _ _ .started => true
  | _ => false

def awaitsWriter : ChallengeTask → Bool
  | .check _ _ .missed | .mark _ (.upserted _) => true
  | _ => false

end ChallengeTask

namespace ChallengeState

def initial (rows : VerifiedRows) (clock : ℚ) : ChallengeState :=
  ⟨⟨0, clock⟩, rows, .new, fun _ => .idle, fun _ => none⟩

def move (state : ChallengeState) (task : Nat) (stage : ChallengeTask) (cell : Cell IpAddr Bool) :
    ChallengeState :=
  { state with now := state.now.next, cell, tasks := Function.update state.tasks task stage }

/-- `get_or_refresh` around `is_ip_challenge_verified`. -/
def advanceCheck (settings : ChallengeSettings) (state : ChallengeState) (task : Nat) (ip : IpAddr)
    (began : Moment) (stage : VerifyStage) : ChallengeState :=
  match stage with
  | .fetching _ =>
      let verified := isIpChallengeVerified state.rows state.now.clock ip
      state.move task (.check ip began (.fetched (verified, state.now))) state.cell
  | stage =>
      let next := state.cell.getOrRefresh settings.ttl state.now.clock task ip
        (fun fresh => ⟨fresh.1, fresh.2.tick⟩) (fun answer => (answer.value, state.now)) stage
      state.move task (.check ip began next.1) next.2

/-- The row is written first, then the cell is told, under its write lock. -/
def advanceMark (settings : ChallengeSettings) (state : ChallengeState) (task : Nat) (ip : IpAddr)
    (stage : MarkStage) : ChallengeState :=
  let cell := state.cell
  match stage with
  | .arrived =>
      { state.move task (.mark ip (.upserted state.now)) cell with
        rows := upsertChallengeVerifiedIp state.rows state.now.clock ip
          settings.challengeVerifiedTtlSeconds
        upserts := Function.update state.upserts (toDbBytes ip) (some state.now) }
  | .upserted upsertedAt =>
      state.move task (.mark ip (.storing upsertedAt)) (cell.write task)
  | .storing upsertedAt =>
      state.move task (.mark ip (.stored upsertedAt))
        ((cell.insert ip ⟨state.now.clock, ⟨true, upsertedAt.tick⟩⟩).release task)
  | .stored upsertedAt => state.move task (.mark ip (.returned upsertedAt state.now)) cell
  | .returned _ _ => state

def ready (state : ChallengeState) (task : ChallengeTask) : Prop :=
  task.finished = false ∧ (task.awaitsReader = true → state.cell.writer = none) ∧
    (task.awaitsWriter = true → state.cell.writer = none ∧ state.cell.readers = ∅)

instance (state : ChallengeState) (task : ChallengeTask) : Decidable (state.ready task) :=
  inferInstanceAs (Decidable (_ ∧ _ ∧ _))

end ChallengeState

/-- A call that fails ends its task as one that is dropped does. -/
def challengeSystem (settings : ChallengeSettings) : System ChallengeState ChallengeEvent where
  enabled state
    | .beginCheck task _ | .beginMark task _ => state.tasks task = .idle
    | .advance task => state.ready (state.tasks task)
    | .abandon task => (state.tasks task).finished = false
    | .elapse duration => 0 ≤ duration
  next state event :=
    match event with
    | .beginCheck task ip => state.move task (.check ip state.now .started) state.cell
    | .beginMark task ip => state.move task (.mark ip .arrived) state.cell
    | .advance task =>
        match state.tasks task with
        | .check ip began stage => state.advanceCheck settings task ip began stage
        | .mark ip stage => state.advanceMark settings task ip stage
        | .idle | .abandoned => state
    | .abandon task => state.move task .abandoned (state.cell.release task)
    | .elapse duration => { state with now := state.now.later duration }

instance (settings : ChallengeSettings) (state : ChallengeState) :
    (event : ChallengeEvent) → Decidable ((challengeSystem settings).enabled state event)
  | .beginCheck task _ => inferInstanceAs (Decidable (state.tasks task = .idle))
  | .beginMark task _ => inferInstanceAs (Decidable (state.tasks task = .idle))
  | .advance task => inferInstanceAs (Decidable (state.ready (state.tasks task)))
  | .abandon task => inferInstanceAs (Decidable ((state.tasks task).finished = false))
  | .elapse duration => inferInstanceAs (Decidable (0 ≤ duration))

/-- When the statement took effect whose result a task is about to store. -/
def ChallengeTask.storesFrom : ChallengeTask → Option Moment
  | .check _ _ (.fetched (_, readAt)) => some readAt
  | .mark _ (.storing upsertedAt) => some upsertedAt
  | _ => none

/-- A store follows its statement within the delay. -/
def StoresWithin (delay : ℚ) (state : ChallengeState) : ChallengeEvent → Prop
  | .advance task => ∀ statement ∈ (state.tasks task).storesFrom,
      state.now.clock ≤ statement.clock + delay
  | _ => True

instance (delay : ℚ) (state : ChallengeState) :
    (event : ChallengeEvent) → Decidable (StoresWithin delay state event)
  | .advance task => inferInstanceAs (Decidable (∀ statement ∈ (state.tasks task).storesFrom, _))
  | .beginCheck _ _ | .beginMark _ _ | .abandon _ | .elapse _ => .isTrue trivial

/-! ## What is known of entries and tasks -/

def ChallengeTask.Stored (task : ChallengeTask) (ip : IpAddr) (upsertedAt : Moment) : Prop :=
  match task with
  | .mark other (.stored moment) | .mark other (.returned moment _) =>
      other = ip ∧ moment = upsertedAt
  | _ => False

def ChallengeTask.Returned (task : ChallengeTask) (ip : IpAddr) (upsertedAt returnedAt : Moment) :
    Prop :=
  match task with
  | .mark other (.returned moment response) =>
      other = ip ∧ moment = upsertedAt ∧ response = returnedAt
  | _ => False

theorem ChallengeTask.Returned.stored {task : ChallengeTask} {ip : IpAddr}
    {upsertedAt returnedAt : Moment} (returned : task.Returned ip upsertedAt returnedAt) :
    task.Stored ip upsertedAt := by
  cases task with
  | mark other stage =>
      cases stage with
      | returned => exact ⟨returned.1, returned.2.1⟩
      | _ => exact returned.elim
  | _ => exact returned.elim

namespace ChallengeState

def StoredMark (state : ChallengeState) (ip : IpAddr) (upsertedAt : Moment) : Prop :=
  ∃ task, (state.tasks task).Stored ip upsertedAt

def ReturnedMark (state : ChallengeState) (ip : IpAddr) (upsertedAt returnedAt : Moment) : Prop :=
  ∃ task, (state.tasks task).Returned ip upsertedAt returnedAt

/-- No verification that the cell was told of lasts beyond `time`. -/
def PastMarks (settings : ChallengeSettings) (state : ChallengeState) (ip : IpAddr) (time : ℚ) :
    Prop :=
  ∀ upsertedAt, state.StoredMark ip upsertedAt →
    upsertedAt.clock + settings.challengeVerifiedTtlSeconds ≤ time

structure EntryOk (settings : ChallengeSettings) (delay : ℚ) (state : ChallengeState) (ip : IpAddr)
    (entry : Entry (Fetched Bool)) : Prop where
  past : entry.fetchedAt ≤ state.now.clock
  positive : entry.value.value = true → ∀ upsertedAt,
    state.upserts (toDbBytes ip) = some upsertedAt →
      entry.fetchedAt ≤ upsertedAt.clock + settings.challengeVerifiedTtlSeconds + delay
  negative : entry.value.value = false → state.PastMarks settings ip entry.fetchedAt

structure FetchedOk (settings : ChallengeSettings) (state : ChallengeState) (ip : IpAddr)
    (began : Moment) (verified : Bool) (readAt : Moment) : Prop where
  after : began.clock ≤ readAt.clock
  past : readAt.clock ≤ state.now.clock
  positive : verified = true → ∀ upsertedAt, state.upserts (toDbBytes ip) = some upsertedAt →
    upsertedAt.tick < began.tick → readAt.clock <
      upsertedAt.clock + settings.challengeVerifiedTtlSeconds
  bounded : verified = true → ∀ upsertedAt, state.upserts (toDbBytes ip) = some upsertedAt →
    readAt.clock ≤ upsertedAt.clock + settings.challengeVerifiedTtlSeconds
  negative : verified = false → state.PastMarks settings ip readAt.clock

structure AnsweredOk (settings : ChallengeSettings) (delay : ℚ) (state : ChallengeState)
    (ip : IpAddr) (began : Moment) (verified : Bool) (answeredAt : Moment) : Prop where
  positive : verified = true → ∀ upsertedAt, state.upserts (toDbBytes ip) = some upsertedAt →
    upsertedAt.tick < began.tick → began.clock <
      upsertedAt.clock + settings.challengeVerifiedTtlSeconds + settings.ttl + delay
  negative : verified = false → ∀ upsertedAt returnedAt,
    state.ReturnedMark ip upsertedAt returnedAt → returnedAt.tick < began.tick →
      upsertedAt.clock + settings.challengeVerifiedTtlSeconds ≤ answeredAt.clock

/-- The row was written then, or later. -/
def Marked (state : ChallengeState) (ip : IpAddr) (upsertedAt : Moment) : Prop :=
  ∃ last, state.upserts (toDbBytes ip) = some last ∧ upsertedAt.clock ≤ last.clock

def holdsWriter (state : ChallengeState) (task : Nat) : Prop := state.cell.writer = some task

def StageOk (settings : ChallengeSettings) (delay : ℚ) (state : ChallengeState) (task : Nat)
    (ip : IpAddr) (began : Moment) : VerifyStage → Prop
  | .started | .reading | .missed => True
  | .writing | .fetching _ => state.holdsWriter task
  | .fetched (verified, readAt) | .retaining (verified, readAt) =>
      state.holdsWriter task ∧ state.FetchedOk settings ip began verified readAt
  | .answered (verified, answeredAt) => state.AnsweredOk settings delay ip began verified answeredAt

def TaskOk (settings : ChallengeSettings) (delay : ℚ) (state : ChallengeState) (task : Nat) :
    ChallengeTask → Prop
  | .check ip began stage =>
      began.tick < state.now.tick ∧ began.clock ≤ state.now.clock ∧
        state.StageOk settings delay task ip began stage
  | .mark ip (.storing upsertedAt) => state.holdsWriter task ∧ state.Marked ip upsertedAt
  | .mark ip (.upserted upsertedAt) | .mark ip (.stored upsertedAt)
  | .mark ip (.returned upsertedAt _) => state.Marked ip upsertedAt
  | _ => True

structure Timed (settings : ChallengeSettings) (delay : ℚ) (state : ChallengeState) : Prop where
  tasks : ∀ task, state.TaskOk settings delay task (state.tasks task)
  entries : ∀ ip entry, state.cell.entries ip = some entry → state.EntryOk settings delay ip entry
  rows : ∀ bytes upsertedAt, state.upserts bytes = some upsertedAt →
    upsertedAt.clock ≤ state.now.clock ∧
      state.rows bytes = some (upsertedAt.clock + settings.challengeVerifiedTtlSeconds)

end ChallengeState

end Filehost.Cache
