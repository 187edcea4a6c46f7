import Filehost.Cache.KeyedTtl
import Filehost.Data.Transition

namespace Filehost.Cache

open Filehost.Data

/-! # Cached cells under concurrent tasks

Any number of tasks of one process share one locked cell for each kind of
value.  A task advances one lock, map or database operation at a time, so a run
is any interleaving of these operations that the locks allow. -/

/-- What the cells stand in front of: how a missing value is read, what a
change does to the tables (`none` when it removes nothing), and which cell it
clears afterwards. -/
structure Backing (Kind : Type) (Key Value : Kind → Type) (Tables Change : Type) where
  ttl : ℚ
  fetch (kind : Kind) (key : Key kind) (tables : Tables) (now : ℚ) : Value kind
  execute (change : Change) (tables : Tables) : Option Tables
  invalidates (change : Change) : Kind

/-- A value and the tick of the database read it came from.  No task looks at
the tick. -/
structure Fetched (ν : Type u) where
  value : ν
  readAt : Nat
deriving DecidableEq

abbrev Cell (κ : Type u) (ν : Type v) := KeyedTtlCache κ (Fetched ν)

/-- Where a check stands, a call of `get_or_refresh` whose fetch is one read of the database. -/
abbrev CheckStage (ν : Type u) := GetStage (Fetched ν) (Fetched ν)

/-- Where a task that changes the tables stands.  Commits and responses keep
their ticks. -/
inductive HandlerStage where
  | arrived
  | refused
  | committed (committedAt : Nat)
  | clearing (committedAt : Nat)
  | cleared (committedAt : Nat)
  | responded (committedAt respondedAt : Nat)

inductive Task {Kind : Type} (Key Value : Kind → Type) (Change : Type) where
  | idle
  | abandoned
  | check (kind : Kind) (key : Key kind) (began : Nat) (stage : CheckStage (Value kind))
  | handler (change : Change) (stage : HandlerStage)

structure DatabaseRead {Kind : Type} (Key : Kind → Type) (Tables : Type) where
  kind : Kind
  key : Key kind
  readAt : Nat
  tables : Tables
  now : ℚ

/-- `tick` counts the steps taken; `reads` remembers every database read. -/
structure CacheState {Kind : Type} (Key Value : Kind → Type) (Tables Change : Type) where
  clock : ℚ
  tick : Nat
  tables : Tables
  cell : (kind : Kind) → Cell (Key kind) (Value kind)
  tasks : Nat → Task Key Value Change
  reads : List (DatabaseRead Key Tables)

/-- The last two are not steps of a task: time passes, and other programs write
to the database. -/
inductive CacheEvent {Kind : Type} (Key : Kind → Type) (Tables Change : Type) where
  | beginCheck (task : Nat) (kind : Kind) (key : Key kind)
  | beginHandler (task : Nat) (change : Change)
  | advance (task : Nat)
  | abandon (task : Nat)
  | elapse (duration : ℚ)
  | alter (tables : Tables)

variable {Kind : Type} {Key Value : Kind → Type} {Tables Change : Type}

def Task.finished : Task Key Value Change → Bool
  | .idle | .abandoned | .check _ _ _ (.answered _) | .handler _ .refused
  | .handler _ (.responded _ _) => true
  | _ => false

def CacheState.initial (tables : Tables) (clock : ℚ) : CacheState Key Value Tables Change :=
  ⟨clock, 0, tables, fun _ => .new, fun _ => .idle, []⟩

variable [DecidableEq Kind]

def CacheState.move (state : CacheState Key Value Tables Change) (task : Nat)
    (stage : Task Key Value Change) (kind : Kind) (cell : Cell (Key kind) (Value kind)) :
    CacheState Key Value Tables Change :=
  { state with
    tick := state.tick + 1
    cell := Function.update state.cell kind cell
    tasks := Function.update state.tasks task stage }

variable [∀ kind, DecidableEq (Key kind)]

/-- `get_or_refresh` with a read of the database for its fetch. -/
def CacheState.advanceCheck (backing : Backing Kind Key Value Tables Change)
    (state : CacheState Key Value Tables Change) (task : Nat) (kind : Kind) (key : Key kind)
    (began : Nat) (stage : CheckStage (Value kind)) : CacheState Key Value Tables Change :=
  let cell := state.cell kind
  match stage with
  | .fetching _ =>
      let answer := ⟨backing.fetch kind key state.tables state.clock, state.tick⟩
      { state.move task (.check kind key began (.fetched answer)) kind cell with
        reads := ⟨kind, key, state.tick, state.tables, state.clock⟩ :: state.reads }
  | stage =>
      let next := cell.getOrRefresh backing.ttl state.clock task key id id stage
      state.move task (.check kind key began next.1) kind next.2

/-- A handler commits its change, clears the cell, then responds.  A change that
removes nothing clears nothing. -/
def CacheState.advanceHandler (backing : Backing Kind Key Value Tables Change)
    (state : CacheState Key Value Tables Change) (task : Nat) (change : Change)
    (stage : HandlerStage) : CacheState Key Value Tables Change :=
  let kind := backing.invalidates change
  let cell := state.cell kind
  match stage with
  | .arrived =>
      match backing.execute change state.tables with
      | none => state.move task (.handler change .refused) kind cell
      | some tables =>
          { state.move task (.handler change (.committed state.tick)) kind cell with tables }
  | .committed committedAt =>
      state.move task (.handler change (.clearing committedAt)) kind (cell.write task)
  | .clearing committedAt =>
      state.move task (.handler change (.cleared committedAt)) kind (cell.invalidate.release task)
  | .cleared committedAt =>
      state.move task (.handler change (.responded committedAt state.tick)) kind cell
  | .refused | .responded _ _ => state

def CacheState.ready (backing : Backing Kind Key Value Tables Change)
    (state : CacheState Key Value Tables Change) : Task Key Value Change → Prop
  | .check kind _ _ .started => (state.cell kind).admitsReader
  | .check kind _ _ .missed => (state.cell kind).admitsWriter
  | .handler change (.committed _) => (state.cell (backing.invalidates change)).admitsWriter
  | task => task.finished = false

/-- A task may be dropped between any two operations, its guards with it. -/
def cacheSystem (backing : Backing Kind Key Value Tables Change) :
    System (CacheState Key Value Tables Change) (CacheEvent Key Tables Change) where
  enabled state
    | .beginCheck task _ _ | .beginHandler task _ => state.tasks task = .idle
    | .advance task => state.ready backing (state.tasks task)
    | .abandon task => (state.tasks task).finished = false
    | .elapse duration => 0 ≤ duration
    | .alter _ => True
  next state event :=
    let tick := state.tick + 1
    match event with
    | .beginCheck task kind key =>
        { state with
          tick, tasks := Function.update state.tasks task (.check kind key state.tick .started) }
    | .beginHandler task change =>
        { state with tick, tasks := Function.update state.tasks task (.handler change .arrived) }
    | .advance task =>
        match state.tasks task with
        | .check kind key began stage => state.advanceCheck backing task kind key began stage
        | .handler change stage => state.advanceHandler backing task change stage
        | .idle | .abandoned => state
    | .abandon task =>
        { state with
          tick
          cell := fun kind => (state.cell kind).release task
          tasks := Function.update state.tasks task .abandoned }
    | .elapse duration => { state with tick, clock := state.clock + duration }
    | .alter tables => { state with tick, tables }

end Filehost.Cache
