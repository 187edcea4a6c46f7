import Filehost.Data.Instant
import Filehost.Data.TokenBucket
import Filehost.Data.Transition
import Filehost.Ip.Address
import Mathlib.Algebra.Order.Field.Rat

namespace Filehost.RateLimit

open Filehost.Data Filehost.Ip

/-! # The byte throttle

Bytes per second and tokens are rationals, like instants and durations. -/

structure Bucket where
  lastRefill : ℚ
  tokens : ℚ

abbrev Buckets := IpAddr → Option Bucket

def idleLimit : ℚ := 60

def Buckets.evict (buckets : Buckets) (now : ℚ) : Buckets := fun key =>
  (buckets key).filter fun bucket => durationSince now bucket.lastRefill < idleLimit

def Buckets.available (buckets : Buckets) (ip : IpAddr) (rate burst now : ℚ) : ℚ :=
  let bucket := ((buckets.evict now) ip).getD ⟨now, burst⟩
  min (bucket.tokens + durationSince now bucket.lastRefill * rate) burst

/-- Charges `bytes` and answers how long to hold them back, if at all.  An
overdraft empties the bucket; it does not leave it in debt. -/
def Buckets.reserve (buckets : Buckets) (ip : IpAddr) (bytes : Nat) (rate burst now : ℚ) :
    Option ℚ × Buckets :=
  let tokens := buckets.available ip rate burst now
  if (bytes : ℚ) ≤ tokens then
    (none, Function.update (buckets.evict now) ip (some ⟨now, tokens - bytes⟩))
  else
    (some (((bytes : ℚ) - tokens) / rate),
      Function.update (buckets.evict now) ip (some ⟨now, 0⟩))

structure ChunkEvent where
  stream : Nat
  key : IpAddr
  bytes : Nat
  now : ℚ
  release : ℚ

/-- One throttle shared by any number of streams.  `charged` remembers every
chunk, newest first. -/
structure ThrottleState where
  buckets : Buckets
  clock : ℚ
  readyAt : Nat → ℚ
  charged : List ChunkEvent

def ThrottleState.start (buckets : Buckets) (clock : ℚ) : ThrottleState :=
  ⟨buckets, clock, fun _ => clock, []⟩

/-- A stream charges its next chunk once the last one has been let through,
and holds it back for at least the wait it is answered. -/
def throttleSystem (rate burst : ℚ) : System ThrottleState ChunkEvent where
  enabled state event :=
    state.clock ≤ event.now ∧ state.readyAt event.stream ≤ event.now ∧
      event.now + (state.buckets.reserve event.key event.bytes rate burst event.now).1.getD 0 ≤
        event.release
  next state event :=
    { buckets := (state.buckets.reserve event.key event.bytes rate burst event.now).2
      clock := event.now
      readyAt := Function.update state.readyAt event.stream event.release
      charged := event :: state.charged }

instance (rate burst : ℚ) (state : ThrottleState) (event : ChunkEvent) :
    Decidable ((throttleSystem rate burst).enabled state event) :=
  inferInstanceAs (Decidable (_ ∧ _ ∧ _))

def letThrough (key : IpAddr) (charged : List ChunkEvent) (time : ℚ) : ℚ :=
  ((charged.filter fun event => event.key = key ∧ event.release ≤ time).map
    fun event => (event.bytes : ℚ)).sum

theorem Buckets.reserve_wait {rate : ℚ} (rated : 0 < rate) (buckets : Buckets) (ip : IpAddr)
    (bytes : Nat) (burst now : ℚ) :
    (buckets.reserve ip bytes rate burst now).1.getD 0 =
      max (((bytes : ℚ) - buckets.available ip rate burst now) / rate) 0 := by
  by_cases enough : (bytes : ℚ) ≤ buckets.available ip rate burst now
  · have nonpositive : ((bytes : ℚ) - buckets.available ip rate burst now) / rate ≤ 0 :=
      div_nonpos_of_nonpos_of_nonneg (by linarith) rated.le
    simp [Buckets.reserve, enough, max_eq_right nonpositive]
  · have positive : 0 ≤ ((bytes : ℚ) - buckets.available ip rate burst now) / rate :=
      div_nonneg (by linarith) rated.le
    simp [Buckets.reserve, enough, max_eq_left positive]

variable {rate burst : ℚ} {key : IpAddr}

theorem evict_of_recent {buckets : Buckets} {bucket : Bucket} {now : ℚ}
    (found : buckets key = some bucket) (recent : now - bucket.lastRefill < idleLimit) :
    buckets.evict now key = some bucket := by
  have positive : 0 < idleLimit := by decide +kernel
  simp [Buckets.evict, found, durationSince, recent, positive]

theorem evict_of_idle {buckets : Buckets} {bucket : Bucket} {now : ℚ}
    (found : buckets key = some bucket) (idle : idleLimit ≤ now - bucket.lastRefill) :
    buckets.evict now key = none := by
  simp [Buckets.evict, found, durationSince, idle]

theorem evict_none {buckets : Buckets} (absent : buckets key = none) (now : ℚ) :
    buckets.evict now key = none := by
  simp [Buckets.evict, absent]

theorem available_of_evicted {buckets : Buckets} {now : ℚ}
    (evicted : buckets.evict now key = none) : buckets.available key rate burst now = burst := by
  simp [Buckets.available, evicted, durationSince]

end Filehost.RateLimit
