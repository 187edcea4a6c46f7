import Mathlib.Algebra.BigOperators.Group.List.Basic
import Mathlib.Algebra.GroupWithZero.Nat
import Mathlib.Data.List.Basic

namespace Filehost.Data.Streams

/-! # Streams read piece by piece

A budget is spent as pieces arrive and a digest is fed with them.  In the end neither
shows how the stream was cut. -/

structure Budget where
  State : Type
  consume : State → Nat → Option State
  left : State → Nat
  spends : ∀ state amount after, consume state amount = some after →
    left after + amount = left state
  refuses : ∀ state amount, consume state amount = none → left state < amount

structure Digest (Out : Type) where
  State : Type
  new : State
  update : State → List UInt8 → State
  finalize : State → Out
  hash : List UInt8 → Out
  streams : ∀ pieces : List (List UInt8), finalize (pieces.foldl update new) = hash pieces.flatten

namespace Budget

variable (budget : Budget)

def consumeAll (state : budget.State) : List Nat → Option budget.State
  | [] => some state
  | amount :: rest => (budget.consume state amount).bind fun after => consumeAll after rest

variable {budget} {state after : budget.State} {amount : Nat} {amounts : List Nat}

theorem consumeAll_spends (consumed : budget.consumeAll state amounts = some after) :
    budget.left after + amounts.sum = budget.left state := by
  induction amounts generalizing state with
  | nil =>
      cases consumed
      simp
  | cons amount rest ih =>
      obtain ⟨middle, first, later⟩ := Option.bind_eq_some_iff.mp consumed
      have spent := budget.spends state amount middle first
      have rested := ih later
      rw [List.sum_cons]
      omega

/-- Whether a budget suffices depends on the total alone. -/
theorem consumeAll_isSome_iff :
    (budget.consumeAll state amounts).isSome = true ↔ amounts.sum ≤ budget.left state := by
  induction amounts generalizing state with
  | nil => simp [consumeAll]
  | cons amount rest ih =>
      rw [consumeAll, List.sum_cons]
      cases consumed : budget.consume state amount with
      | none =>
          have short := budget.refuses state amount consumed
          simp only [Option.bind_none, Option.isSome_none, Bool.false_eq_true, false_iff]
          omega
      | some after =>
          have spent := budget.spends state amount after consumed
          rw [Option.bind_some, ih]
          omega

/-- A plain counter. -/
def counter : Budget where
  State := Nat
  consume left amount := if amount ≤ left then some (left - amount) else none
  left := id
  spends state amount after consumed := by
    split at consumed
    · cases consumed
      rename_i fits
      exact Nat.sub_add_cancel fits
    · cases consumed
  refuses state amount refused := by
    split at refused
    · cases refused
    · rename_i exceeded
      exact Nat.lt_of_not_le exceeded

end Budget

/-- It keeps what it is fed. -/
def Digest.collecting : Digest (List UInt8) where
  State := List UInt8
  new := []
  update held piece := held ++ piece
  finalize := id
  hash := id
  streams pieces := by
    have joined := @List.foldl_append_eq_append _ _ pieces id []
    simpa using joined

end Filehost.Data.Streams
