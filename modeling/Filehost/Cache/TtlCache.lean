import Filehost.Cache.KeyedTtl
import Filehost.Data.Transition

namespace Filehost.Cache

open Filehost.Data

/-! # One cache and its callers

Any number of tasks call the operations of one `KeyedTtlCache`.  A step is what a task does
between two points at which others may run or time may pass, and a task may be dropped at any
of these, its guard with it. -/

/-- A call remembers when its fetch started. -/
abbrev CallStage (ν : Type v) := GetStage (ℚ × ν) ν

inductive WriteStage where
  | started
  | holding
  | done

inductive TtlTask (κ : Type u) (ν : Type v) where
  | idle
  | dropped
  | failed
  | getOrRefresh (key : κ) (stage : CallStage ν)
  | set (key : κ) (value : ν) (stage : WriteStage)
  | invalidate (stage : WriteStage)

/-- What is remembered of a run: the values that were stored, the clears, and the cached values
that were returned.  No task looks at it. -/
inductive Happening (κ : Type u) (ν : Type v) where
  | fetched (key : κ) (startedAt : ℚ) (entry : Entry ν)
  | set (key : κ) (entry : Entry ν)
  | invalidated
  | hit (key : κ) (entry : Entry ν) (lookedUpAt : ℚ)
deriving DecidableEq

/-- The newest happening comes first. -/
structure TtlState (κ : Type u) (ν : Type v) extends KeyedTtlCache κ ν where
  clock : ℚ
  tasks : Nat → TtlTask κ ν
  history : List (Happening κ ν)

inductive TtlCall (κ : Type u) (ν : Type v) where
  | getOrRefresh (key : κ)
  | set (key : κ) (value : ν)
  | invalidate

/-- `fetched` is the end of a fetch, an error being `none`. -/
inductive TtlEvent (κ : Type u) (ν : Type v) where
  | call (task : Nat) (call : TtlCall κ ν)
  | advance (task : Nat)
  | fetched (task : Nat) (result : Option ν)
  | drop (task : Nat)
  | elapse (duration : ℚ)

variable {κ : Type u} {ν : Type v}

def TtlCall.task : TtlCall κ ν → TtlTask κ ν
  | .getOrRefresh key => .getOrRefresh key .started
  | .set key value => .set key value .started
  | .invalidate => .invalidate .started

/-- The task has steps of its own left; a fetch ends by itself. -/
def TtlTask.running : TtlTask κ ν → Bool
  | .idle | .dropped | .failed | .getOrRefresh _ (.answered _) | .set _ _ .done
  | .invalidate .done => false
  | _ => true

def TtlTask.fetching : TtlTask κ ν → Bool
  | .getOrRefresh _ (.fetching _) => true
  | _ => false

instance : (task : TtlTask κ ν) → Decidable (task = .idle)
  | .idle => .isTrue rfl
  | .dropped | .failed | .getOrRefresh _ _ | .set _ _ _ | .invalidate _ => .isFalse nofun

namespace TtlState

def new (clock : ℚ) : TtlState κ ν := ⟨.new, clock, fun _ => .idle, []⟩

variable (state : TtlState κ ν)

/-- The task moves on, and leaves the cache so. -/
def move (task : Nat) (stage : TtlTask κ ν) (cache : KeyedTtlCache κ ν)
    (happenings : List (Happening κ ν)) : TtlState κ ν :=
  { state with
    toKeyedTtlCache := cache
    tasks := Function.update state.tasks task stage
    history := happenings ++ state.history }

/-- What an operation of `get_or_refresh` adds to what is remembered. -/
def happens (ttl : ℚ) (key : κ) : CallStage ν → List (Happening κ ν)
  | .reading | .writing =>
      match state.entries.retain ttl state.clock key with
      | some entry => [.hit key entry state.clock]
      | none => []
  | .fetched (startedAt, fresh) => [.fetched key startedAt ⟨state.clock, fresh⟩]
  | _ => []

variable [DecidableEq κ]

def advanceGet (ttl : ℚ) (task : Nat) (key : κ) (stage : CallStage ν) : TtlState κ ν :=
  let next := state.getOrRefresh ttl state.clock task key Prod.snd id stage
  state.move task (.getOrRefresh key next.1) next.2 (state.happens ttl key stage)

def endFetch (task : Nat) (key : κ) (startedAt : ℚ) : Option ν → TtlState κ ν
  | some fresh =>
      state.move task (.getOrRefresh key (.fetched (startedAt, fresh))) state.toKeyedTtlCache []
  | none => state.move task .failed (state.release task) []

def advanceSet (task : Nat) (key : κ) (value : ν) : WriteStage → TtlState κ ν
  | .started => state.move task (.set key value .holding) (state.write task) []
  | .holding =>
      state.move task (.set key value .done) ((state.insert key ⟨state.clock, value⟩).release task)
        [.set key ⟨state.clock, value⟩]
  | .done => state

def advanceInvalidate (task : Nat) : WriteStage → TtlState κ ν
  | .started => state.move task (.invalidate .holding) (state.write task) []
  | .holding =>
      state.move task (.invalidate .done) (state.toKeyedTtlCache.invalidate.release task)
        [.invalidated]
  | .done => state

def ready : TtlTask κ ν → Prop
  | .getOrRefresh _ .started => state.admitsReader
  | .getOrRefresh _ .missed | .set _ _ .started | .invalidate .started => state.admitsWriter
  | task => task.running = true ∧ task.fetching = false

instance : (task : TtlTask κ ν) → Decidable (state.ready task)
  | .getOrRefresh _ .started => inferInstanceAs (Decidable (_ = none))
  | .getOrRefresh _ .missed | .set _ _ .started | .invalidate .started =>
      inferInstanceAs (Decidable (_ = none ∧ _ = ∅))
  | .idle | .dropped | .failed | .getOrRefresh _ .reading | .getOrRefresh _ .writing
  | .getOrRefresh _ (.fetching _) | .getOrRefresh _ (.fetched _)
  | .getOrRefresh _ (.retaining _) | .getOrRefresh _ (.answered _)
  | .set _ _ .holding | .set _ _ .done | .invalidate .holding | .invalidate .done =>
      inferInstanceAs (Decidable (_ = true ∧ _ = false))

end TtlState

def ttlSystem [DecidableEq κ] (ttl : ℚ) : System (TtlState κ ν) (TtlEvent κ ν) where
  enabled state
    | .call task _ => state.tasks task = .idle
    | .advance task => state.ready (state.tasks task)
    | .fetched task _ => (state.tasks task).fetching = true
    | .drop task => (state.tasks task).running = true
    | .elapse duration => 0 ≤ duration
  next state event :=
    match event with
    | .call task call => state.move task call.task state.toKeyedTtlCache []
    | .advance task =>
        match state.tasks task with
        | .getOrRefresh key stage => state.advanceGet ttl task key stage
        | .set key value stage => state.advanceSet task key value stage
        | .invalidate stage => state.advanceInvalidate task stage
        | .idle | .dropped | .failed => state
    | .fetched task result =>
        match state.tasks task with
        | .getOrRefresh key (.fetching startedAt) => state.endFetch task key startedAt result
        | _ => state
    | .drop task => state.move task .dropped (state.release task) []
    | .elapse duration => { state with clock := state.clock + duration }

instance [DecidableEq κ] (ttl : ℚ) (state : TtlState κ ν) :
    (event : TtlEvent κ ν) → Decidable ((ttlSystem ttl).enabled state event)
  | .call task _ => inferInstanceAs (Decidable (state.tasks task = .idle))
  | .advance task => inferInstanceAs (Decidable (state.ready (state.tasks task)))
  | .fetched task _ => inferInstanceAs (Decidable ((state.tasks task).fetching = true))
  | .drop task => inferInstanceAs (Decidable ((state.tasks task).running = true))
  | .elapse duration => inferInstanceAs (Decidable (0 ≤ duration))

end Filehost.Cache
