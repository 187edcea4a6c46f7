import Filehost.RateLimit.ByteThrottle
import Mathlib.Algebra.Order.Archimedean.Basic
import Mathlib.Tactic.Linarith

namespace Filehost.RateLimit

open Filehost.Data Filehost.Ip

/-! # Throttles with and without eviction

The throttle is compared with one that charges the same calls and never drops a
bucket.  A dropped bucket starts again full, so the two differ where a bucket
takes longer to refill than it may be idle. -/

namespace Buckets

/-- The tokens a call finds in its bucket. -/
def level (buckets : Buckets) (ip : IpAddr) (rate burst now : ℚ) : ℚ :=
  let bucket := (buckets ip).getD ⟨now, burst⟩
  min (bucket.tokens + durationSince now bucket.lastRefill * rate) burst

/-- `reserve` without its eviction. -/
def reserveKeeping (buckets : Buckets) (ip : IpAddr) (bytes : Nat) (rate burst now : ℚ) :
    Option ℚ × Buckets :=
  let tokens := buckets.level ip rate burst now
  if (bytes : ℚ) ≤ tokens then
    (none, Function.update buckets ip (some ⟨now, tokens - bytes⟩))
  else
    (some (((bytes : ℚ) - tokens) / rate), Function.update buckets ip (some ⟨now, 0⟩))

def empty : Buckets := fun _ => none

theorem reserve_eq_reserveKeeping (buckets : Buckets) (ip : IpAddr) (bytes : Nat)
    (rate burst now : ℚ) :
    buckets.reserve ip bytes rate burst now =
      (buckets.evict now).reserveKeeping ip bytes rate burst now := rfl

/-- Either way a call leaves what it does not take, and no less than nothing. -/
theorem reserveKeeping_buckets (buckets : Buckets) (ip : IpAddr) (bytes : Nat)
    (rate burst now : ℚ) :
    (buckets.reserveKeeping ip bytes rate burst now).2 =
      Function.update buckets ip (some ⟨now, max (buckets.level ip rate burst now - bytes) 0⟩) := by
  by_cases enough : (bytes : ℚ) ≤ buckets.level ip rate burst now
  · simp [reserveKeeping, enough]
  · have short : buckets.level ip rate burst now - bytes ≤ 0 := by linarith
    simp [reserveKeeping, enough, max_eq_right short]

end Buckets

structure Call where
  ip : IpAddr
  bytes : Nat
  now : ℚ

variable (rate burst : ℚ)

/-- What the calls are answered, first to last, and the same without eviction. -/
def answers (buckets : Buckets) : List Call → List (Option ℚ)
  | [] => []
  | call :: calls =>
      let (wait, after) := buckets.reserve call.ip call.bytes rate burst call.now
      wait :: answers after calls

def answersKeeping (buckets : Buckets) : List Call → List (Option ℚ)
  | [] => []
  | call :: calls =>
      let (wait, after) := buckets.reserveKeeping call.ip call.bytes rate burst call.now
      wait :: answersKeeping after calls

/-- Every call that asks for more than the bucket without eviction holds finds
just as much with it. -/
def EvenWhereShort (evicting keeping : Buckets) : List Call → Prop
  | [] => True
  | call :: calls =>
      (keeping.level call.ip rate burst call.now < call.bytes →
        evicting.available call.ip rate burst call.now =
          keeping.level call.ip rate burst call.now) ∧
      EvenWhereShort (evicting.reserve call.ip call.bytes rate burst call.now).2
        (keeping.reserveKeeping call.ip call.bytes rate burst call.now).2 calls

def InOrder (calls : List Call) : Prop := calls.Pairwise fun earlier later => earlier.now ≤ later.now

/-! ## The two throttles side by side -/

/-- An entry with eviction and the entry without: the same but for the levels, or
dropped after it was idle for long. -/
inductive Shadows (compares : ℚ → ℚ → Prop) (clock : ℚ) : Option Bucket → Option Bucket → Prop
  | absent : Shadows compares clock none none
  | present {last kept level : ℚ} (levels : compares kept level) (solvent : 0 ≤ kept)
      (past : last ≤ clock) : Shadows compares clock (some ⟨last, level⟩) (some ⟨last, kept⟩)
  | dropped {last kept : ℚ} (solvent : 0 ≤ kept) (idle : idleLimit ≤ clock - last) :
      Shadows compares clock none (some ⟨last, kept⟩)

/-- A comparison of levels that charging and refilling keep, and that holds between
a bucket refilled while idle and a full one. -/
structure LevelComparison (compares : ℚ → ℚ → Prop) : Prop where
  refl : ∀ level, compares level level
  monotone : ∀ change : ℚ → ℚ, Monotone change → ∀ kept level, compares kept level →
    compares (change kept) (change level)
  refilled : ∀ kept idle, 0 ≤ kept → idleLimit ≤ idle →
    compares (min (kept + idle * rate) burst) burst

variable {rate burst} {compares : ℚ → ℚ → Prop} {clock now : ℚ} {evicting keeping : Buckets}

theorem Shadows.evict {ip : IpAddr} (shadows : Shadows compares clock (evicting ip) (keeping ip))
    (later : clock ≤ now) : Shadows compares now (evicting.evict now ip) (keeping ip) := by
  generalize found : evicting ip = entry at shadows
  generalize keeping ip = kept at shadows ⊢
  cases shadows with
  | absent =>
      rw [evict_none found]
      exact .absent
  | dropped solvent idle =>
      rw [evict_none found]
      exact .dropped solvent (by linarith)
  | @present last kept level levels solvent past =>
      by_cases recent : now - last < idleLimit
      · rw [evict_of_recent found recent]
        exact .present levels solvent (past.trans later)
      · rw [evict_of_idle found (not_lt.mp recent)]
        exact .dropped solvent (not_lt.mp recent)

theorem Shadows.level (comparison : LevelComparison rate burst compares) {ip : IpAddr}
    (shadows : Shadows compares now (evicting ip) (keeping ip)) :
    compares (keeping.level ip rate burst now) (evicting.level ip rate burst now) := by
  unfold Buckets.level
  generalize evicting ip = found at shadows ⊢
  generalize keeping ip = kept at shadows ⊢
  cases shadows with
  | absent => exact comparison.refl _
  | present levels solvent past =>
      apply comparison.monotone (fun tokens => min (tokens + _) burst) _ _ _ levels
      intro less more ordered
      exact min_le_min_right _ (add_le_add_left ordered _)
  | @dropped last kept solvent idle =>
      have since : durationSince now last = now - last := by
        have positive : 0 < idleLimit := by decide +kernel
        exact max_eq_left (by linarith)
      have opened : durationSince now now = 0 := by simp [durationSince]
      have full := comparison.refilled kept (now - last) solvent idle
      simpa only [Option.getD_none, Option.getD_some, since, opened, zero_mul, add_zero, min_self]
        using full

theorem Shadows.charge (comparison : LevelComparison rate burst compares) (call : Call)
    (shadows : ∀ ip, Shadows compares call.now (evicting ip) (keeping ip)) (ip : IpAddr) :
    Shadows compares call.now
      ((evicting.reserveKeeping call.ip call.bytes rate burst call.now).2 ip)
      ((keeping.reserveKeeping call.ip call.bytes rate burst call.now).2 ip) := by
  rw [Buckets.reserveKeeping_buckets, Buckets.reserveKeeping_buckets]
  by_cases same : ip = call.ip
  · subst same
    rw [Function.update_self, Function.update_self]
    refine .present ?_ (le_max_right _ _) (le_refl _)
    apply comparison.monotone (fun tokens => max (tokens - call.bytes) 0) _ _ _
      ((shadows call.ip).level comparison)
    intro less more ordered
    exact max_le_max_right _ (sub_le_sub_right ordered _)
  · rw [Function.update_of_ne same, Function.update_of_ne same]
    exact shadows ip

theorem Shadows.reserve (comparison : LevelComparison rate burst compares) {call : Call}
    (shadows : ∀ ip, Shadows compares clock (evicting ip) (keeping ip)) (later : clock ≤ call.now) :
    compares (keeping.level call.ip rate burst call.now)
        (evicting.available call.ip rate burst call.now) ∧
      ∀ ip, Shadows compares call.now
        ((evicting.reserve call.ip call.bytes rate burst call.now).2 ip)
        ((keeping.reserveKeeping call.ip call.bytes rate burst call.now).2 ip) := by
  have evicted := fun ip => (shadows ip).evict later
  exact ⟨(evicted call.ip).level comparison, Shadows.charge comparison call evicted⟩

/-! ## When eviction shows -/

theorem reserveKeeping_answer (buckets : Buckets) (ip : IpAddr) (bytes : Nat) :
    (buckets.reserveKeeping ip bytes rate burst now).1 =
      if (bytes : ℚ) ≤ buckets.level ip rate burst now then none
      else some (((bytes : ℚ) - buckets.level ip rate burst now) / rate) := by
  by_cases enough : (bytes : ℚ) ≤ buckets.level ip rate burst now
  · simp [Buckets.reserveKeeping, enough]
  · simp [Buckets.reserveKeeping, enough]

/-- The fuller bucket answers the same exactly when it covers the call as well, or
is no fuller. -/
theorem answer_eq_iff (rated : 0 < rate) (bytes : ℚ) {kept level : ℚ} (fuller : kept ≤ level) :
    (if bytes ≤ level then none else some ((bytes - level) / rate)) =
        (if bytes ≤ kept then none else some ((bytes - kept) / rate)) ↔
      (kept < bytes → level = kept) := by
  by_cases short : kept < bytes
  · rw [if_neg (not_le.mpr short)]
    by_cases covered : bytes ≤ level
    · rw [if_pos covered]
      constructor
      · intro same
        contradiction
      · intro even
        have same := even short
        linarith
    · rw [if_neg covered, Option.some.injEq, div_left_inj' rated.ne', sub_right_inj]
      simp [short]
  · have covered := not_lt.mp short
    rw [if_pos covered, if_pos (covered.trans fuller)]
    simp [short]

theorem levelComparison_le : LevelComparison rate burst (· ≤ ·) where
  refl := le_refl
  monotone _ monotone _ _ ordered := monotone ordered
  refilled _ _ _ _ := min_le_right _ _

theorem levelComparison_eq (rated : 0 < rate) (refills : burst ≤ idleLimit * rate) :
    LevelComparison rate burst (· = ·) where
  refl _ := rfl
  monotone change _ _ _ same := congrArg change same
  refilled kept idle solvent long := by
    have refilled := mul_le_mul_of_nonneg_right long rated.le
    apply min_eq_right
    linarith

theorem answers_eq_iff (rated : 0 < rate) {calls : List Call}
    (shadows : ∀ ip, Shadows (· ≤ ·) clock (evicting ip) (keeping ip))
    (later : ∀ call ∈ calls, clock ≤ call.now) (ordered : InOrder calls) :
    answers rate burst evicting calls = answersKeeping rate burst keeping calls ↔
      EvenWhereShort rate burst evicting keeping calls := by
  induction calls generalizing evicting keeping clock with
  | nil => exact iff_of_true rfl trivial
  | cons call calls ih =>
      obtain ⟨after, ordered⟩ := List.pairwise_cons.mp ordered
      obtain ⟨fuller, left⟩ :=
        Shadows.reserve (@levelComparison_le rate burst) shadows
          (later call (by simp))
      have rest := ih left after ordered
      have answered := answer_eq_iff rated call.bytes fuller
      simp only [answers, answersKeeping, EvenWhereShort, List.cons.injEq, rest]
      rw [Buckets.reserve_eq_reserveKeeping, reserveKeeping_answer, reserveKeeping_answer]
      exact and_congr_left' answered

theorem evenWhereShort_of_refills (rated : 0 < rate) (refills : burst ≤ idleLimit * rate)
    {calls : List Call} (shadows : ∀ ip, Shadows (· = ·) clock (evicting ip) (keeping ip))
    (later : ∀ call ∈ calls, clock ≤ call.now) (ordered : InOrder calls) :
    EvenWhereShort rate burst evicting keeping calls := by
  induction calls generalizing evicting keeping clock with
  | nil => trivial
  | cons call calls ih =>
      obtain ⟨after, ordered⟩ := List.pairwise_cons.mp ordered
      obtain ⟨same, shadows⟩ :=
        Shadows.reserve (levelComparison_eq rated refills) shadows (later call (by simp))
      exact ⟨fun _ => same.symm, ih shadows after ordered⟩

/-- A clock that no call precedes. -/
theorem starts_before {calls : List Call} (ordered : InOrder calls) :
    ∃ clock, ∀ call ∈ calls, clock ≤ call.now := by
  cases calls with
  | nil => exact ⟨0, nofun⟩
  | cons first calls =>
      refine ⟨first.now, fun call member => ?_⟩
      rcases List.mem_cons.mp member with rfl | member
      · exact le_refl _
      · exact (List.pairwise_cons.mp ordered).1 call member

/-- One key asks for more than its bucket ever holds, and again when it was idle for
just long enough. -/
def askedAgain (bytes : Nat) : List Call :=
  [⟨.v4 (.new 203 0 113 7), bytes, 0⟩, ⟨.v4 (.new 203 0 113 7), bytes, idleLimit⟩]

theorem askedAgain_inOrder (bytes : Nat) : InOrder (askedAgain bytes) := by
  have forward : (0 : ℚ) ≤ idleLimit := by decide +kernel
  simpa [InOrder, askedAgain] using forward

theorem not_evenWhereShort_askedAgain {bytes : Nat} (large : burst < bytes)
    (slow : idleLimit * rate < burst) :
    ¬EvenWhereShort rate burst .empty .empty (askedAgain bytes) := by
  intro even
  obtain ⟨-, again, -⟩ := even
  have forward : (0 : ℚ) ≤ idleLimit := by decide +kernel
  have overdrawn : ¬(bytes : ℚ) ≤ burst := not_le.mpr large
  have kept : (Buckets.empty.reserveKeeping (.v4 (.new 203 0 113 7)) bytes rate burst 0).2.level
      (.v4 (.new 203 0 113 7)) rate burst idleLimit = idleLimit * rate := by
    simp [Buckets.reserveKeeping, Buckets.level, Buckets.empty, durationSince, overdrawn, forward,
      slow.le]
  have found : (Buckets.empty.reserve (.v4 (.new 203 0 113 7)) bytes rate burst 0).2.available
      (.v4 (.new 203 0 113 7)) rate burst idleLimit = burst := by
    apply available_of_evicted
    apply @evict_of_idle _ _ ⟨0, 0⟩
    · simp [Buckets.reserve, Buckets.available, Buckets.evict, Buckets.empty, durationSince, overdrawn]
    · simp
  rw [kept, found] at again
  have same := again (by linarith)
  linarith

/-- Eviction never shows exactly when a bucket refills while it may be idle.  In one
sequence of calls it does not show exactly when both buckets of a call are equally
full, wherever the one that was kept falls short. -/
theorem eviction_invisible_iff (rated : 0 < rate) :
    ((∀ calls, InOrder calls →
        answers rate burst .empty calls = answersKeeping rate burst .empty calls) ↔
      burst ≤ idleLimit * rate) ∧
    ∀ calls, InOrder calls →
      (answers rate burst .empty calls = answersKeeping rate burst .empty calls ↔
        EvenWhereShort rate burst .empty .empty calls) := by
  have exactly : ∀ calls, InOrder calls →
      (answers rate burst .empty calls = answersKeeping rate burst .empty calls ↔
        EvenWhereShort rate burst .empty .empty calls) := by
    intro calls ordered
    obtain ⟨clock, later⟩ := starts_before ordered
    exact answers_eq_iff rated (fun _ => .absent) later ordered
  refine ⟨⟨fun invisible => ?_, fun refills calls ordered => ?_⟩, exactly⟩
  · by_contra slow
    obtain ⟨bytes, large⟩ := exists_nat_gt burst
    have ordered := askedAgain_inOrder bytes
    exact not_evenWhereShort_askedAgain large (not_le.mp slow)
      ((exactly _ ordered).mp (invisible _ ordered))
  · obtain ⟨clock, later⟩ := starts_before ordered
    rw [exactly calls ordered]
    exact evenWhereShort_of_refills rated refills (fun _ => .absent) later ordered

/-- A burst of 61 bytes is spent, and asked for again a minute later: the bucket
that was kept holds 60. -/
theorem dropped_bucket_is_full :
    InOrder (askedAgain 61) ∧ answers 1 61 .empty (askedAgain 61) = [none, none] ∧
      answersKeeping 1 61 .empty (askedAgain 61) = [none, some 1] :=
  ⟨askedAgain_inOrder 61, by decide +kernel, by decide +kernel⟩

theorem eviction_invisible_iff_slow :
    (∀ calls, InOrder calls → answers 1 61 .empty calls = answersKeeping 1 61 .empty calls) ↔
      61 ≤ idleLimit * 1 :=
  (eviction_invisible_iff (by decide)).1

end Filehost.RateLimit
