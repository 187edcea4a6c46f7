import Mathlib.Tactic.TypeStar

namespace Filehost.Data

/-! Labelled transition systems.  An event carries every choice the
environment makes, so the state after it is a function of the state before. -/

structure System (σ : Type u) (ε : Type v) where
  enabled : σ → ε → Prop
  next : σ → ε → σ

namespace System

variable {σ : Type u} {ε : Type v} {system : System σ ε}

/-- A run from `start`, its events newest first. -/
inductive Run (system : System σ ε) (start : σ) : List ε → σ → Prop
  | start : Run system start [] start
  | step {events : List ε} {state : σ} {event : ε} (run : Run system start events state)
      (enabled : system.enabled state event) :
      Run system start (event :: events) (system.next state event)

def after (system : System σ ε) (start : σ) : List ε → σ
  | [] => start
  | event :: events => system.next (system.after start events) event

def Admits (system : System σ ε) (start : σ) : List ε → Prop
  | [] => True
  | event :: events =>
      system.Admits start events ∧ system.enabled (system.after start events) event

instance decidableAdmits [∀ state event, Decidable (system.enabled state event)] (start : σ) :
    (events : List ε) → Decidable (system.Admits start events)
  | [] => .isTrue trivial
  | _ :: events => @instDecidableAnd _ _ (decidableAdmits start events) inferInstance

theorem Run.of_admits {start : σ} {events : List ε} (admitted : system.Admits start events) :
    system.Run start events (system.after start events) := by
  induction events with
  | nil => exact .start
  | cons event events ih => exact .step (ih admitted.1) admitted.2

theorem after_append (start : σ) (newer older : List ε) :
    system.after start (newer ++ older) = system.after (system.after start older) newer := by
  induction newer with
  | nil => rfl
  | cons event newer ih => exact congrArg (fun state => system.next state event) ih

theorem Run.append {start middle state : σ} {older newer : List ε}
    (run : system.Run start older middle) (later : system.Run middle newer state) :
    system.Run start (newer ++ older) state := by
  induction later with
  | start => exact run
  | step _ enabled ih => exact .step ih enabled

/-- The runs of `system` all of whose steps meet `condition`. -/
def restrict (system : System σ ε) (condition : σ → ε → Prop) : System σ ε where
  enabled state event := system.enabled state event ∧ condition state event
  next := system.next

instance [∀ state event, Decidable (system.enabled state event)] (condition : σ → ε → Prop)
    [∀ state event, Decidable (condition state event)] (state : σ) (event : ε) :
    Decidable ((system.restrict condition).enabled state event) :=
  inferInstanceAs (Decidable (_ ∧ _))

theorem Run.of_restrict {condition : σ → ε → Prop} {start state : σ} {events : List ε}
    (run : (system.restrict condition).Run start events state) :
    system.Run start events state := by
  induction run with
  | start => exact .start
  | step _ enabled ih => exact .step ih enabled.1

theorem run_restrict_congr {left right : σ → ε → Prop}
    (agree : ∀ state event, left state event ↔ right state event) {start state : σ}
    {events : List ε} :
    (system.restrict left).Run start events state ↔
      (system.restrict right).Run start events state := by
  have same : left = right := by
    funext state event
    exact propext (agree state event)
  rw [same]

def leadsTo (system : System σ ε) (property : σ → Prop) (state : σ) (event : ε) : Prop :=
  property (system.next state event)

theorem Run.restrict_of_invariant {assumed wanted : σ → ε → Prop} {invariant : σ → Prop}
    {start state : σ} {events : List ε} (run : (system.restrict assumed).Run start events state)
    (initially : invariant start)
    (preserved : ∀ state event, invariant state → (system.restrict assumed).enabled state event →
      invariant (system.next state event))
    (follows : ∀ state event, invariant state → (system.restrict assumed).enabled state event →
      wanted state event) :
    (system.restrict wanted).Run start events state ∧ invariant state := by
  induction run with
  | start => exact ⟨.start, initially⟩
  | step _ enabled ih =>
      exact ⟨.step ih.1 ⟨enabled.1, follows _ _ ih.2 enabled⟩, preserved _ _ ih.2 enabled⟩

/-- Where, given an invariant, a step leads to the property exactly when it meets
a condition, the runs that keep the property throughout are those whose steps
all meet the condition. -/
theorem run_leadsTo_iff {property invariant : σ → Prop} {condition : σ → ε → Prop} {start state : σ}
    {events : List ε} (initially : property start ∧ invariant start)
    (preserved : ∀ state event, invariant state → system.enabled state event →
      invariant (system.next state event))
    (exactly : ∀ state event, property state ∧ invariant state → system.enabled state event →
      (system.leadsTo property state event ↔ condition state event)) :
    (system.restrict (system.leadsTo property)).Run start events state ↔
      (system.restrict condition).Run start events state := by
  constructor
  · intro run
    refine (run.restrict_of_invariant initially ?_ fun state event holds enabled =>
      (exactly state event holds enabled.1).mp enabled.2).1
    exact fun state event holds enabled => ⟨enabled.2, preserved state event holds.2 enabled.1⟩
  · intro run
    refine (run.restrict_of_invariant initially ?_ fun state event holds enabled =>
      (exactly state event holds enabled.1).mpr enabled.2).1
    exact fun state event holds enabled =>
      ⟨(exactly state event holds enabled.1).mpr enabled.2,
        preserved state event holds.2 enabled.1⟩

/-- The same where the step needs no invariant besides the property. -/
theorem run_keeps_iff {property : σ → Prop} {condition : σ → ε → Prop} {start state : σ}
    {events : List ε} (initially : property start)
    (exactly : ∀ state event, property state → system.enabled state event →
      (system.leadsTo property state event ↔ condition state event)) :
    (system.restrict (system.leadsTo property)).Run start events state ↔
      (system.restrict condition).Run start events state :=
  @run_leadsTo_iff σ ε system property (fun _ => True) condition start state events
    ⟨initially, trivial⟩ (fun _ _ _ _ => trivial)
    fun state event holds enabled => exactly state event holds.1 enabled

theorem Run.invariant {invariant : σ → Prop} {start state : σ} {events : List ε}
    (run : system.Run start events state) (initially : invariant start)
    (preserved : ∀ state event, invariant state → system.enabled state event →
      invariant (system.next state event)) :
    invariant state := by
  induction run with
  | start => exact initially
  | step _ enabled ih => exact preserved _ _ ih enabled

end System

end Filehost.Data
