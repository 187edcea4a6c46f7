import Mathlib.Algebra.Order.Field.Basic
import Mathlib.Tactic.Linarith

namespace Filehost.Data.TokenBucket

/-! The accounting of a token bucket.  A ledger carries an overdraft as a
negative level, so what it has granted never exceeds the burst plus what the
rate has produced since it was opened. -/

variable {K : Type u} [Field K] [LinearOrder K]

structure Ledger (K : Type u) where
  last : K
  level : K

structure Charge (K : Type u) where
  time : K
  amount : K
  release : K

def Ledger.refill (rate burst : K) (ledger : Ledger K) (now : K) : K :=
  min (ledger.level + (now - ledger.last) * rate) burst

def Ledger.charge (rate burst : K) (ledger : Ledger K) (charge : Charge K) : Ledger K :=
  ⟨charge.time, ledger.refill rate burst charge.time - charge.amount⟩

/-- Charges, newest first, each held back until the ledger it leaves behind
would be out of debt. -/
inductive Paced (rate burst start : K) : List (Charge K) → Ledger K → Prop
  | opened : Paced rate burst start [] ⟨start, burst⟩
  | charged {charges : List (Charge K)} {ledger : Ledger K} {charge : Charge K}
      (paced : Paced rate burst start charges ledger)
      (ordered : ledger.last ≤ charge.time) (positive : 0 ≤ charge.amount)
      (later : charge.time ≤ charge.release)
      (repaid : charge.amount - ledger.refill rate burst charge.time ≤
        (charge.release - charge.time) * rate) :
      Paced rate burst start (charge :: charges) (ledger.charge rate burst charge)

def passed (charges : List (Charge K)) (time : K) : K :=
  ((charges.filter fun charge => charge.release ≤ time).map Charge.amount).sum

def total (charges : List (Charge K)) : K := (charges.map Charge.amount).sum

variable {rate burst start : K} {charges : List (Charge K)} {ledger : Ledger K}

theorem Paced.positive (paced : Paced rate burst start charges ledger) :
    ∀ charge ∈ charges, 0 ≤ charge.amount := by
  induction paced with
  | opened => simp
  | charged _ _ positive _ _ ih =>
      intro other member
      rcases List.mem_cons.mp member with rfl | member
      · exact positive
      · exact ih other member

variable [IsStrictOrderedRing K]

theorem Paced.total_le (paced : Paced rate burst start charges ledger) :
    total charges ≤ burst + (ledger.last - start) * rate - ledger.level := by
  induction paced with
  | opened => simp [total]
  | @charged charges ledger charge _ _ _ _ _ ih =>
      have refilled : ledger.refill rate burst charge.time ≤
          ledger.level + (charge.time - ledger.last) * rate := min_le_left _ _
      simp only [total, List.map_cons, List.sum_cons, Ledger.charge] at ih ⊢
      linarith

theorem passed_le_total (positive : ∀ charge ∈ charges, 0 ≤ charge.amount) (time : K) :
    passed charges time ≤ total charges := by
  induction charges with
  | nil => simp [passed, total]
  | cons charge rest ih =>
      have tail := ih fun other member => positive other (by simp [member])
      have head := positive charge (by simp)
      simp only [passed, total, List.filter_cons, List.map_cons, List.sum_cons] at tail ⊢
      split
      · simp only [List.map_cons, List.sum_cons]
        linarith
      · linarith

/-- By any time after the opening, no more than the burst and the yield of the
rate has been let through. -/
theorem Paced.passed_le (paced : Paced rate burst start charges ledger) (rated : 0 < rate)
    (room : 0 ≤ burst) {time : K} (after : start ≤ time) :
    passed charges time ≤ burst + (time - start) * rate := by
  induction paced with
  | opened =>
      have yield : 0 ≤ (time - start) * rate := mul_nonneg (sub_nonneg.mpr after) rated.le
      simp only [passed, List.filter_nil, List.map_nil, List.sum_nil]
      linarith
  | @charged charges ledger charge paced ordered positive later repaid ih =>
      by_cases released : charge.release ≤ time
      · have whole := Paced.charged paced ordered positive later repaid
        calc passed (charge :: charges) time
            ≤ total (charge :: charges) := passed_le_total whole.positive time
          _ ≤ burst + (charge.time - start) * rate -
                (ledger.refill rate burst charge.time - charge.amount) := whole.total_le
          _ ≤ burst + (charge.release - start) * rate := by linarith
          _ ≤ burst + (time - start) * rate := by
                have stretched : (charge.release - start) * rate ≤ (time - start) * rate :=
                  mul_le_mul_of_nonneg_right (by linarith) rated.le
                linarith
      · have skipped : passed (charge :: charges) time = passed charges time := by
          simp [passed, released]
        rw [skipped]
        exact ih

end Filehost.Data.TokenBucket
