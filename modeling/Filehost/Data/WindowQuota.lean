import Mathlib.Data.List.Basic

namespace Filehost.Data.WindowQuota

/-! A quota on what is charged within a sliding window.  Admission compares what
is spent with a limit, and lets a client charge up to an allowance afterwards.
The window can then never hold more than the limit and one allowance. -/

structure Charge where
  time : Int
  weight : Int

def total (log : List Charge) : Int := log.foldr (fun charge sum => charge.weight + sum) 0

def recent (window now : Int) (log : List Charge) : List Charge :=
  log.filter fun charge => decide (now - window < charge.time)

def spent (window now : Int) (log : List Charge) : Int := total (recent window now log)

def Nonneg (log : List Charge) : Prop := ∀ charge ∈ log, 0 ≤ charge.weight

variable {window limit bound allowance now later : Int} {log : List Charge}

theorem total_cons (charge : Charge) (log : List Charge) :
    total (charge :: log) = charge.weight + total log := rfl

theorem total_append (first second : List Charge) :
    total (first ++ second) = total first + total second := by
  induction first with
  | nil => simp [total]
  | cons charge rest ih =>
      rw [List.cons_append, total_cons, total_cons, ih]
      omega

theorem total_le_of_sublist {part whole : List Charge} (sublist : part.Sublist whole)
    (nonneg : Nonneg whole) : total part ≤ total whole := by
  induction sublist with
  | slnil => exact Int.le_refl _
  | cons charge _ ih =>
      have positive := nonneg charge List.mem_cons_self
      have rest := ih fun other member => nonneg other (List.mem_cons_of_mem _ member)
      rw [total_cons]
      omega
  | cons_cons charge _ ih =>
      have rest := ih fun other member => nonneg other (List.mem_cons_of_mem _ member)
      rw [total_cons, total_cons]
      omega

theorem spent_append (first second : List Charge) :
    spent window now (first ++ second) = spent window now first + spent window now second := by
  rw [spent, recent, List.filter_append, total_append]
  rfl

theorem spent_le_total (nonneg : Nonneg log) : spent window now log ≤ total log :=
  total_le_of_sublist List.filter_sublist nonneg

theorem recent_sublist (log : List Charge) (ordered : now ≤ later) :
    (recent window later log).Sublist (recent window now log) := by
  apply List.monotone_filter_right log
  intro charge young
  have inside := of_decide_eq_true young
  exact decide_eq_true (by omega)

theorem Nonneg.of_sublist {part whole : List Charge} (nonneg : Nonneg whole)
    (sublist : part.Sublist whole) : Nonneg part :=
  fun charge member => nonneg charge (sublist.subset member)

/-- A window that has moved on holds less. -/
theorem spent_antitone (nonneg : Nonneg log) (ordered : now ≤ later) :
    spent window later log ≤ spent window now log :=
  total_le_of_sublist (recent_sublist log ordered) (nonneg.of_sublist List.filter_sublist)

theorem spent_le_of_sublist {part whole : List Charge} (sublist : part.Sublist whole)
    (nonneg : Nonneg whole) : spent window now part ≤ spent window now whole :=
  total_le_of_sublist (sublist.filter _) (nonneg.of_sublist List.filter_sublist)

/-- What the window holds was charged by the last client admitted, who may go on
charging, or was below the limit when that client was admitted. -/
structure Within (window limit bound now allowance : Int) (log : List Charge) : Prop where
  nonneg : Nonneg log
  split : ∃ newer older, log = newer ++ older ∧ total newer + allowance ≤ bound ∧
    spent window now older < limit

theorem Within.start (positive : 0 < limit) (allowed : allowance ≤ bound) :
    Within window limit bound now allowance [] := by
  refine ⟨nofun, [], [], rfl, ?_, positive⟩
  rw [show total [] = 0 from rfl]
  omega

theorem Within.elapse (within : Within window limit bound now allowance log)
    (ordered : now ≤ later) : Within window limit bound later allowance log := by
  obtain ⟨nonneg, newer, older, rfl, charged, below⟩ := within
  have earlier := nonneg.of_sublist (List.sublist_append_right newer older)
  exact ⟨nonneg, newer, older, rfl, charged,
    Int.lt_of_le_of_lt (spent_antitone earlier ordered) below⟩

theorem Within.lower {less : Int} (within : Within window limit bound now allowance log)
    (lower : less ≤ allowance) : Within window limit bound now less log := by
  obtain ⟨nonneg, newer, older, split, charged, below⟩ := within
  exact ⟨nonneg, newer, older, split, by omega, below⟩

theorem Within.charge {weight : Int} (within : Within window limit bound now (weight + allowance) log)
    (nonneg : 0 ≤ weight) (time : Int) :
    Within window limit bound now allowance (⟨time, weight⟩ :: log) := by
  obtain ⟨others, newer, older, rfl, charged, below⟩ := within
  refine ⟨?_, ⟨time, weight⟩ :: newer, older, rfl, ?_, below⟩
  · intro charge member
    rcases List.mem_cons.mp member with rfl | earlier
    · exact nonneg
    · exact others charge earlier
  · rw [total_cons]
    dsimp only
    omega

/-- Admission starts over: all that was charged is older now. -/
theorem Within.admission (nonneg : Nonneg log) (below : spent window now log < limit)
    (allowed : allowance ≤ bound) : Within window limit bound now allowance log := by
  refine ⟨nonneg, [], log, rfl, ?_, below⟩
  rw [show total [] = 0 from rfl]
  omega

theorem Within.spent_lt (within : Within window limit bound now allowance log)
    (allowed : 0 ≤ allowance) : spent window now log < limit + bound := by
  obtain ⟨nonneg, newer, older, rfl, charged, below⟩ := within
  have newest : spent window now newer ≤ total newer :=
    spent_le_total (nonneg.of_sublist (List.sublist_append_left newer older))
  rw [spent_append]
  omega

end Filehost.Data.WindowQuota
