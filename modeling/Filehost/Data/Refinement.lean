import Filehost.Data.Transition

namespace Filehost.Data

/-! # What a run keeps

An invariant may speak of the events so far, to count them or to replay them on an
abstract system.  A relation between states that every step keeps is kept by runs. -/

namespace System

variable {σ : Type u} {ε : Type v} {system : System σ ε} {start state : σ} {events : List ε}

theorem Run.invariant_with_events {invariant : List ε → σ → Prop}
    (run : system.Run start events state) (initially : invariant [] start)
    (preserved : ∀ events state event, invariant events state → system.enabled state event →
      invariant (event :: events) (system.next state event)) :
    invariant events state := by
  induction run with
  | start => exact initially
  | step _ enabled ih => exact preserved _ _ _ ih enabled

/-- A reflexive and transitive relation that every step keeps relates the ends of
a run. -/
theorem Run.relates {relation : σ → σ → Prop} (run : system.Run start events state)
    (reflexive : relation start start)
    (step : ∀ state event, system.enabled state event → relation state (system.next state event))
    (transitive : ∀ first second third, relation first second → relation second third →
      relation first third) : relation start state := by
  induction run with
  | start => exact reflexive
  | step _ enabled ih => exact transitive _ _ _ ih (step _ _ enabled)

/-- What the steps of a run add up to. -/
def totalAlong (system : System σ ε) (start : σ) (amount : σ → ε → Int) : List ε → Int
  | [] => 0
  | event :: events =>
      system.totalAlong start amount events + amount (system.after start events) event

theorem Run.eq_after (run : system.Run start events state) : state = system.after start events := by
  induction run with
  | start => rfl
  | step _ _ ih =>
      rw [ih]
      rfl

theorem after_restrict (condition : σ → ε → Prop) (start : σ) (events : List ε) :
    (system.restrict condition).after start events = system.after start events := by
  induction events with
  | nil => rfl
  | cons event events ih => exact congrArg (fun state => system.next state event) ih

/-- A measure that each step changes by an amount is changed by their sum. -/
theorem Run.accounts {condition : σ → ε → Prop} {measure : σ → Int} {amount : σ → ε → Int}
    (run : (system.restrict condition).Run start events state)
    (step : ∀ state event, (system.restrict condition).enabled state event →
      measure (system.next state event) = measure state + amount state event) :
    measure state = measure start + system.totalAlong start amount events := by
  induction run with
  | start => exact (Int.add_zero _).symm
  | step earlier enabled ih =>
      rw [totalAlong, ← Int.add_assoc, ← ih, ← after_restrict condition, ← earlier.eq_after]
      exact step _ _ enabled

end System

end Filehost.Data
