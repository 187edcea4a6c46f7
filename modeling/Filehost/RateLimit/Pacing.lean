import Filehost.RateLimit.ByteThrottle
import Mathlib.Tactic.Ring

namespace Filehost.RateLimit

open Filehost.Data Filehost.Data.TokenBucket Filehost.Ip

/-! # What the throttle lets through

The throttle is compared with a ledger that carries overdrafts as debt.  The
two agree until a bucket is overdrawn, or evicted before it is full again. -/

variable {rate burst : ℚ} {key : IpAddr}

def ChunkEvent.charge (event : ChunkEvent) : Charge ℚ :=
  ⟨event.now, event.bytes, event.release⟩

def chargesOf (key : IpAddr) (charged : List ChunkEvent) : List (Charge ℚ) :=
  (charged.filter fun event => event.key = key).map ChunkEvent.charge

def openedAt (key : IpAddr) (charged : List ChunkEvent) : Option ℚ :=
  (chargesOf key charged).getLast?.map Charge.time

/-- The ledger of a key: opened at its first charge, never in denial of an
overdraft, never evicted. -/
def ledgerOf (rate burst : ℚ) (key : IpAddr) : List ChunkEvent → Option (Ledger ℚ)
  | [] => none
  | event :: earlier =>
      if event.key = key then
        some (((ledgerOf rate burst key earlier).getD ⟨event.now, burst⟩).charge rate burst
          event.charge)
      else ledgerOf rate burst key earlier

/-- What the ledger of a key holds at `now`; a full burst before its first charge. -/
def ledgerLevel (rate burst : ℚ) (key : IpAddr) (charged : List ChunkEvent) (now : ℚ) : ℚ :=
  ((ledgerOf rate burst key charged).getD ⟨now, burst⟩).refill rate burst now

/-- The ledger covers the charge, or the charge finds no more tokens than the
ledger holds: what is beyond the ledger is not paid with credit left over from
a forgotten overdraft or an early eviction. -/
def WithinLedger (rate burst : ℚ) (key : IpAddr) (state : ThrottleState) (event : ChunkEvent) :
    Prop :=
  event.key = key →
    (event.bytes : ℚ) ≤ ledgerLevel rate burst key state.charged event.now ∨
      state.buckets.available key rate burst event.now ≤
        ledgerLevel rate burst key state.charged event.now

instance (rate burst : ℚ) (key : IpAddr) (state : ThrottleState) (event : ChunkEvent) :
    Decidable (WithinLedger rate burst key state event) :=
  inferInstanceAs (Decidable (_ → _))

theorem letThrough_eq_passed (key : IpAddr) (charged : List ChunkEvent) (time : ℚ) :
    letThrough key charged time = passed (chargesOf key charged) time := by
  induction charged with
  | nil => rfl
  | cons event earlier ih =>
      simp only [letThrough, passed, chargesOf, List.filter_cons] at ih ⊢
      by_cases same : event.key = key
      · by_cases released : event.release ≤ time
        · simpa [same, released, ChunkEvent.charge] using ih
        · simpa [same, released, ChunkEvent.charge] using ih
      · simpa [same] using ih

theorem chargesOf_cons_same {event : ChunkEvent} (earlier : List ChunkEvent)
    (same : event.key = key) :
    chargesOf key (event :: earlier) = event.charge :: chargesOf key earlier := by
  simp [chargesOf, same]

theorem chargesOf_cons_other {event : ChunkEvent} (earlier : List ChunkEvent)
    (other : event.key ≠ key) : chargesOf key (event :: earlier) = chargesOf key earlier := by
  simp [chargesOf, other]

def PacedByLedger (rate burst : ℚ) (key : IpAddr) (state : ThrottleState) : Prop :=
  match ledgerOf rate burst key state.charged with
  | none => chargesOf key state.charged = []
  | some ledger =>
      ledger.last ≤ state.clock ∧
        ∃ opened, openedAt key state.charged = some opened ∧
          Paced rate burst opened (chargesOf key state.charged) ledger

theorem held_until_repaid (rated : 0 < rate) {state : ThrottleState} {event : ChunkEvent}
    {level : ℚ}
    (within : (event.bytes : ℚ) ≤ level ∨
      state.buckets.available event.key rate burst event.now ≤ level)
    (held : event.now + (state.buckets.reserve event.key event.bytes rate burst event.now).1.getD 0
      ≤ event.release) :
    event.now ≤ event.release ∧ (event.bytes : ℚ) - level ≤ (event.release - event.now) * rate := by
  rw [Buckets.reserve_wait rated] at held
  have overdrawn := le_max_left
    (((event.bytes : ℚ) - state.buckets.available event.key rate burst event.now) / rate) 0
  have nonnegative := le_max_right
    (((event.bytes : ℚ) - state.buckets.available event.key rate burst event.now) / rate) 0
  have later : event.now ≤ event.release := by linarith
  refine ⟨later, ?_⟩
  rcases within with covered | found
  · have yield : 0 ≤ (event.release - event.now) * rate :=
      mul_nonneg (sub_nonneg.mpr later) rated.le
    linarith
  · have waited : ((event.bytes : ℚ) - state.buckets.available event.key rate burst event.now) / rate
        ≤ event.release - event.now := by linarith
    rw [div_le_iff₀ rated] at waited
    linarith

theorem pacedByLedger_next (rated : 0 < rate) {state : ThrottleState} {event : ChunkEvent}
    (paced : PacedByLedger rate burst key state)
    (enabled : (throttleSystem rate burst).enabled state event)
    (within : WithinLedger rate burst key state event) :
    PacedByLedger rate burst key ((throttleSystem rate burst).next state event) := by
  obtain ⟨ordered, -, held⟩ := enabled
  by_cases same : event.key = key
  · subst same
    have within := within rfl
    have bytes : (0 : ℚ) ≤ event.charge.amount := Nat.cast_nonneg event.bytes
    cases carried : ledgerOf rate burst event.key state.charged with
    | none =>
        simp only [PacedByLedger, carried] at paced
        simp only [ledgerLevel, carried, Option.getD_none] at within
        obtain ⟨later, repaid⟩ := held_until_repaid rated within held
        simp only [PacedByLedger, throttleSystem, ledgerOf, if_pos, carried, Option.getD_none,
          chargesOf_cons_same _ rfl, paced, openedAt]
        exact ⟨le_refl _, event.now, rfl, .charged .opened (le_refl _) bytes later repaid⟩
    | some ledger =>
        simp only [PacedByLedger, carried] at paced
        simp only [ledgerLevel, carried, Option.getD_some] at within
        obtain ⟨later, repaid⟩ := held_until_repaid rated within held
        obtain ⟨current, opened, first, paced⟩ := paced
        simp only [PacedByLedger, throttleSystem, ledgerOf, if_pos, carried, Option.getD_some,
          chargesOf_cons_same _ rfl, openedAt]
        refine ⟨le_refl _, opened, ?_, .charged paced (current.trans ordered) bytes later repaid⟩
        cases remaining : chargesOf event.key state.charged with
        | nil => simp [openedAt, remaining] at first
        | cons charge rest => simpa [openedAt, remaining] using first
  · simp only [PacedByLedger, throttleSystem, ledgerOf, if_neg same, openedAt,
      chargesOf_cons_other _ same] at paced ⊢
    cases carried : ledgerOf rate burst key state.charged with
    | none => simpa only [carried] using paced
    | some ledger =>
        simp only [carried] at paced ⊢
        exact ⟨paced.1.trans ordered, paced.2⟩

/-- In a run whose charges of the key all stay within its ledger, the key
never gets more through than its burst and the yield of its rate. -/
theorem letThrough_le_of_within_ledger (rated : 0 < rate) (roomy : 0 < burst)
    {buckets : Buckets} {clock : ℚ} {events : List ChunkEvent} {state : ThrottleState}
    (run : ((throttleSystem rate burst).restrict (WithinLedger rate burst key)).Run
      (.start buckets clock) events state)
    {opened : ℚ} (first : openedAt key state.charged = some opened)
    {elapsed : ℚ} (nonnegative : 0 ≤ elapsed) :
    letThrough key state.charged (opened + elapsed) ≤ burst + rate * elapsed := by
  have paced : PacedByLedger rate burst key state := by
    refine run.invariant ?_ ?_
    · exact rfl
    · exact fun _ _ paced enabled => pacedByLedger_next rated paced enabled.1 enabled.2
  unfold PacedByLedger at paced
  split at paced
  · simp [openedAt, paced] at first
  · obtain ⟨_, opened', first', paced⟩ := paced
    rw [first] at first'
    cases first'
    have after : opened ≤ opened + elapsed := by linarith
    have bound := paced.passed_le rated roomy.le after
    rw [letThrough_eq_passed]
    calc passed (chargesOf key state.charged) (opened + elapsed)
        ≤ burst + (opened + elapsed - opened) * rate := bound
      _ = burst + rate * elapsed := by ring

def FindsTokens (rate burst : ℚ) (key : IpAddr) (state : ThrottleState) (event : ChunkEvent) :
    Prop :=
  event.key = key → (event.bytes : ℚ) ≤ state.buckets.available key rate burst event.now

def MirrorsLedger (rate burst : ℚ) (key : IpAddr) (state : ThrottleState) : Prop :=
  match ledgerOf rate burst key state.charged with
  | none => state.buckets key = none
  | some ledger =>
      ledger.last ≤ state.clock ∧ 0 ≤ ledger.level ∧
        (state.buckets key = some ⟨ledger.last, ledger.level⟩ ∨
          state.buckets key = none ∧ idleLimit ≤ state.clock - ledger.last)

theorem available_of_uncharged {state : ThrottleState}
    (carried : ledgerOf rate burst key state.charged = none)
    (mirrors : MirrorsLedger rate burst key state) (now : ℚ) :
    state.buckets.available key rate burst now = burst := by
  have absent : state.buckets key = none := by
    simpa only [MirrorsLedger, carried] using mirrors
  exact available_of_evicted (evict_none absent now)

theorem available_eq_refill (rated : 0 < rate) (refills : burst ≤ idleLimit * rate)
    {state : ThrottleState} {ledger : Ledger ℚ} {now : ℚ}
    (carried : ledgerOf rate burst key state.charged = some ledger)
    (mirrors : MirrorsLedger rate burst key state) (ordered : state.clock ≤ now) :
    state.buckets.available key rate burst now = ledger.refill rate burst now := by
  simp only [MirrorsLedger, carried] at mirrors
  obtain ⟨current, solvent, shown⟩ := mirrors
  have later : ledger.last ≤ now := current.trans ordered
  have full (idle : idleLimit ≤ now - ledger.last) : ledger.refill rate burst now = burst := by
    have yield : idleLimit * rate ≤ (now - ledger.last) * rate :=
      mul_le_mul_of_nonneg_right idle rated.le
    exact min_eq_right (by linarith)
  rcases shown with found | ⟨absent, idle⟩
  · by_cases recent : now - ledger.last < idleLimit
    · simp only [Buckets.available, evict_of_recent found recent, Option.getD_some,
        durationSince, max_eq_left (sub_nonneg.mpr later), Ledger.refill]
    · have idle := not_lt.mp recent
      rw [available_of_evicted (evict_of_idle found idle), full idle]
  · rw [available_of_evicted (evict_none absent now), full (by linarith)]

theorem mirrorsLedger_next (rated : 0 < rate) (refills : burst ≤ idleLimit * rate)
    {state : ThrottleState} {event : ChunkEvent} (mirrors : MirrorsLedger rate burst key state)
    (enabled : (throttleSystem rate burst).enabled state event)
    (finds : FindsTokens rate burst key state event) :
    MirrorsLedger rate burst key ((throttleSystem rate burst).next state event) := by
  have ordered := enabled.1
  by_cases same : event.key = key
  · subst same
    have enough := finds rfl
    have charged : (state.buckets.reserve event.key event.bytes rate burst event.now).2 event.key =
        some ⟨event.now, state.buckets.available event.key rate burst event.now - event.bytes⟩ := by
      simp [Buckets.reserve, enough]
    cases carried : ledgerOf rate burst event.key state.charged with
    | none =>
        rw [available_of_uncharged carried mirrors] at charged enough
        simp only [MirrorsLedger, throttleSystem, ledgerOf, if_pos, carried, Option.getD_none,
          Ledger.charge, ChunkEvent.charge, Ledger.refill, sub_self, zero_mul, add_zero, min_self]
        exact ⟨le_refl _, by linarith, .inl charged⟩
    | some ledger =>
        have level := available_eq_refill rated refills carried mirrors ordered
        rw [level] at charged enough
        simp only [MirrorsLedger, throttleSystem, ledgerOf, if_pos, carried, Option.getD_some,
          Ledger.charge, ChunkEvent.charge]
        exact ⟨le_refl _, by linarith, .inl charged⟩
  · have kept : (state.buckets.reserve event.key event.bytes rate burst event.now).2 key =
        state.buckets.evict event.now key := by
      unfold Buckets.reserve
      dsimp only
      split <;> simp [Function.update_of_ne (Ne.symm same)]
    simp only [MirrorsLedger, throttleSystem, ledgerOf, if_neg same, kept] at mirrors ⊢
    cases carried : ledgerOf rate burst key state.charged with
    | none =>
        simp only [carried] at mirrors
        exact evict_none mirrors event.now
    | some ledger =>
        simp only [carried] at mirrors
        obtain ⟨current, solvent, shown⟩ := mirrors
        have later : ledger.last ≤ event.now := current.trans ordered
        refine ⟨later, solvent, ?_⟩
        rcases shown with found | ⟨absent, idle⟩
        · by_cases recent : event.now - ledger.last < idleLimit
          · exact .inl (evict_of_recent found recent)
          · exact .inr ⟨evict_of_idle found (not_lt.mp recent), not_lt.mp recent⟩
        · exact .inr ⟨evict_none absent event.now, by linarith⟩

/-- Runs that never overdraw the key stay within its ledger, as long as one
idle period yields at least the burst. -/
theorem run_within_ledger_of_findsTokens (rated : 0 < rate) (refills : burst ≤ idleLimit * rate)
    {buckets : Buckets} {clock : ℚ} (fresh : buckets key = none) {events : List ChunkEvent}
    {state : ThrottleState}
    (run : ((throttleSystem rate burst).restrict (FindsTokens rate burst key)).Run
      (.start buckets clock) events state) :
    ((throttleSystem rate burst).restrict (WithinLedger rate burst key)).Run
      (.start buckets clock) events state := by
  suffices mirrored : MirrorsLedger rate burst key state ∧
      ((throttleSystem rate burst).restrict (WithinLedger rate burst key)).Run
        (.start buckets clock) events state from mirrored.2
  induction run with
  | start => exact ⟨fresh, .start⟩
  | @step events state event run enabled ih =>
      obtain ⟨mirrors, within⟩ := ih
      refine ⟨mirrorsLedger_next rated refills mirrors enabled.1 enabled.2,
        .step within ⟨enabled.1, fun same => ?_⟩⟩
      subst same
      refine .inr ?_
      cases carried : ledgerOf rate burst event.key state.charged with
      | none =>
          rw [available_of_uncharged carried mirrors]
          simp [ledgerLevel, carried, Ledger.refill]
      | some ledger =>
          simp only [ledgerLevel, carried, Option.getD_some]
          exact (available_eq_refill rated refills carried mirrors enabled.1.1).le

def clientKey : IpAddr := .v4 (.new 203 0 113 7)

def noBuckets : Buckets := fun _ => none

def oneByte (now release : ℚ) : ChunkEvent := ⟨0, clientKey, 1, now, release⟩

/-- Two streams: the second charges its byte when the first has just taken the
whole burst, and is held back for it. -/
def twoStreams : List ChunkEvent :=
  [⟨0, clientKey, 1, 1 / 2, 1 / 2⟩, ⟨1, clientKey, 1, 0, 1 / 4⟩, ⟨0, clientKey, 4, 0, 0⟩]

theorem letThrough_le_of_within_ledger_two_streams :
    letThrough clientKey twoStreams (0 + 1 / 2) ≤ 4 + 4 * (1 / 2) :=
  have run : ((throttleSystem 4 4).restrict (WithinLedger 4 4 clientKey)).Run
      (.start noBuckets 0) twoStreams _ :=
    .step (.step (.step .start ⟨by decide +kernel, by decide +kernel⟩)
      ⟨by decide +kernel, by decide +kernel⟩) ⟨by decide +kernel, by decide +kernel⟩
  letThrough_le_of_within_ledger (by decide) (by decide) run rfl (by decide +kernel)

/-- At one byte a second and a burst of one byte, a single stream sends three
bytes in the first second: the byte held back for a second pays nothing, since
the bucket fills up again while it waits. -/
theorem held_back_byte_is_free :
    ∃ events state, (throttleSystem 1 1).Run (.start noBuckets 0) events state ∧
      openedAt clientKey state.charged = some 0 ∧
      ¬ letThrough clientKey state.charged (0 + 1) ≤ 1 + 1 * 1 :=
  ⟨[oneByte 1 1, oneByte 0 1, oneByte 0 0], _,
    .step (.step (.step .start (by decide +kernel)) (by decide +kernel)) (by decide +kernel),
    rfl, by decide +kernel⟩

end Filehost.RateLimit
