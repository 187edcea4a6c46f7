import Filehost.Ip.Quota
import Filehost.RateLimit.Eviction
import Filehost.RateLimit.ThrottledBody

namespace Filehost.RateLimit

open Filehost.Data Filehost.Ip

/-! # Rotating the addresses of one bucket

Uploads and downloads are charged by throttles of their own, and each direction chooses
the key it is charged under. -/

structure ThrottleSettings where
  maxUploadBytesPerSec : Option ℚ
  maxUploadBurstBytes : Option ℚ
  maxDownloadBytesPerSec : Option ℚ
  maxDownloadBurstBytes : Option ℚ

inductive Direction where
  | upload
  | download
deriving DecidableEq

structure Chunk extends Call where
  direction : Direction

structure Throttles where
  upload : Buckets
  download : Buckets

/-- What `HashedTempFile::read_field` charges for a chunk. -/
def readFieldReserve (settings : ThrottleSettings) (throttle : Buckets) (call : Call) :
    Option ℚ × Buckets :=
  match settings.maxUploadBytesPerSec with
  | none => (none, throttle)
  | some rate =>
      throttle.reserve (normalizeForQuota call.ip) call.bytes rate
        (settings.maxUploadBurstBytes.getD rate) call.now

/-- The body `get_file` responds with, where downloads are throttled. -/
def getFileBody {Body : Type} (settings : ThrottleSettings) (ip : IpAddr) (inner : Body) :
    Option (ThrottledBody Body) :=
  settings.maxDownloadBytesPerSec.map fun rate =>
    .new inner ip rate (settings.maxDownloadBurstBytes.getD rate)

/-- What that body charges for a chunk. -/
def getFileReserve (settings : ThrottleSettings) (throttle : Buckets) (call : Call) :
    Option ℚ × Buckets :=
  match getFileBody settings call.ip () with
  | none => (none, throttle)
  | some body => throttle.reserve body.ip call.bytes body.rate body.burst call.now

/-- The waits of a run, each with its direction. -/
def waits (settings : ThrottleSettings) : Throttles → List Chunk → List (Direction × Option ℚ)
  | _, [] => []
  | throttles, chunk :: chunks =>
      match chunk.direction with
      | .upload =>
          let (wait, upload) := readFieldReserve settings throttles.upload chunk.toCall
          (.upload, wait) :: waits settings { throttles with upload } chunks
      | .download =>
          let (wait, download) := getFileReserve settings throttles.download chunk.toCall
          (.download, wait) :: waits settings { throttles with download } chunks

def waitsIn (settings : ThrottleSettings) (direction : Direction) (chunks : List Chunk) :
    List (Option ℚ) :=
  ((waits settings ⟨.empty, .empty⟩ chunks).filter fun wait => wait.1 = direction).map Prod.snd

/-- The same requests, all from one address. -/
def fromSingle (single : IpAddr) (chunks : List Chunk) : List Chunk :=
  chunks.map fun chunk => { chunk with ip := single }

def FromBucket (single : IpAddr) (chunks : List Chunk) : Prop :=
  ∀ chunk ∈ chunks, normalizeForQuota chunk.ip = normalizeForQuota single

def callsIn (direction : Direction) (chunks : List Chunk) : List Call :=
  (chunks.filter fun chunk => chunk.direction = direction).map Chunk.toCall

/-- What calls are answered by a throttle with this rate and burst, if there is one. -/
def answersWith (limits : Option (ℚ × ℚ)) (buckets : Buckets) (calls : List Call) :
    List (Option ℚ) :=
  match limits with
  | none => calls.map fun _ => none
  | some (rate, burst) => answers rate burst buckets calls

def uploadLimits (settings : ThrottleSettings) : Option (ℚ × ℚ) :=
  settings.maxUploadBytesPerSec.map fun rate => (rate, settings.maxUploadBurstBytes.getD rate)

def downloadLimits (settings : ThrottleSettings) : Option (ℚ × ℚ) :=
  settings.maxDownloadBytesPerSec.map fun rate => (rate, settings.maxDownloadBurstBytes.getD rate)

def Call.atQuota (call : Call) : Call := { call with ip := normalizeForQuota call.ip }

def reserveWith (limits : Option (ℚ × ℚ)) (throttle : Buckets) (call : Call) :
    Option ℚ × Buckets :=
  match limits with
  | none => (none, throttle)
  | some (rate, burst) => throttle.reserve call.ip call.bytes rate burst call.now

/-! ## One direction at a time -/

section Directions

variable (settings : ThrottleSettings)

theorem readFieldReserve_eq (throttle : Buckets) (call : Call) :
    readFieldReserve settings throttle call =
      reserveWith (uploadLimits settings) throttle call.atQuota := by
  unfold readFieldReserve uploadLimits
  cases settings.maxUploadBytesPerSec <;> rfl

theorem getFileReserve_eq (throttle : Buckets) (call : Call) :
    getFileReserve settings throttle call =
      reserveWith (downloadLimits settings) throttle call := by
  unfold getFileReserve getFileBody downloadLimits
  cases settings.maxDownloadBytesPerSec <;> rfl

theorem answersWith_cons (limits : Option (ℚ × ℚ)) (buckets : Buckets) (call : Call)
    (calls : List Call) :
    answersWith limits buckets (call :: calls) =
      (reserveWith limits buckets call).1 ::
        answersWith limits (reserveWith limits buckets call).2 calls := by
  cases limits <;> rfl

theorem waits_split (throttles : Throttles) (chunks : List Chunk) :
    ((waits settings throttles chunks).filter fun wait => wait.1 = .upload).map Prod.snd =
        answersWith (uploadLimits settings) throttles.upload
          ((callsIn .upload chunks).map Call.atQuota) ∧
      ((waits settings throttles chunks).filter fun wait => wait.1 = .download).map Prod.snd =
        answersWith (downloadLimits settings) throttles.download (callsIn .download chunks) := by
  induction chunks generalizing throttles with
  | nil =>
      constructor
      · cases uploadLimits settings <;> rfl
      · cases downloadLimits settings <;> rfl
  | cons chunk chunks ih =>
      cases directed : chunk.direction with
      | upload =>
          obtain ⟨uploads, downloads⟩ :=
            ih { throttles with
              upload := (readFieldReserve settings throttles.upload chunk.toCall).2 }
          simp [waits, callsIn, directed] at uploads downloads ⊢
          rw [answersWith_cons, ← readFieldReserve_eq]
          exact ⟨congrArg _ uploads, downloads⟩
      | download =>
          obtain ⟨uploads, downloads⟩ :=
            ih { throttles with
              download := (getFileReserve settings throttles.download chunk.toCall).2 }
          simp [waits, callsIn, directed] at uploads downloads ⊢
          rw [answersWith_cons, ← getFileReserve_eq]
          exact ⟨uploads, congrArg _ downloads⟩

theorem waitsIn_upload (chunks : List Chunk) : waitsIn settings .upload chunks =
    answersWith (uploadLimits settings) .empty ((callsIn .upload chunks).map Call.atQuota) :=
  (waits_split settings ⟨.empty, .empty⟩ chunks).1

theorem waitsIn_download (chunks : List Chunk) : waitsIn settings .download chunks =
    answersWith (downloadLimits settings) .empty (callsIn .download chunks) :=
  (waits_split settings ⟨.empty, .empty⟩ chunks).2

end Directions

def Call.readdress (single : IpAddr) (call : Call) : Call := { call with ip := single }

theorem callsIn_fromSingle (direction : Direction) (single : IpAddr) (chunks : List Chunk) :
    callsIn direction (fromSingle single chunks) =
      (callsIn direction chunks).map (Call.readdress single) := by
  simp only [callsIn, fromSingle, List.filter_map, List.map_map]
  rfl

/-- Uploads are charged to their quota bucket, whatever the address. -/
theorem uploads_same (settings : ThrottleSettings) {single : IpAddr} {chunks : List Chunk}
    (bucket : FromBucket single chunks) :
    waitsIn settings .upload chunks = waitsIn settings .upload (fromSingle single chunks) := by
  rw [waitsIn_upload, waitsIn_upload, callsIn_fromSingle, List.map_map]
  congr 1
  refine List.map_congr_left fun call member => ?_
  obtain ⟨chunk, chosen, rfl⟩ := List.mem_map.mp member
  have same := bucket chunk (List.mem_of_mem_filter chosen)
  simp only [Function.comp, Call.atQuota, Call.readdress, same]

/-! ## Downloads -/

/-- Wherever the bucket of the single address falls short of a call, that of the call's own
address is no fuller. -/
def EvenWhereShared (rate burst : ℚ) (single : IpAddr) (own shared : Buckets) :
    List Call → Prop
  | [] => True
  | call :: calls =>
      (shared.available single rate burst call.now < call.bytes →
        own.available call.ip rate burst call.now = shared.available single rate burst call.now) ∧
      EvenWhereShared rate burst single (own.reserve call.ip call.bytes rate burst call.now).2
        (shared.reserve single call.bytes rate burst call.now).2 calls

variable {rate burst clock now : ℚ} {single : IpAddr} {own shared : Buckets}

/-- What has been taken from the shared bucket covers what was taken from each of the
others: refilled for as long, it holds no more. -/
inductive Covered (rate clock : ℚ) : Option Bucket → Option Bucket → Prop
  | absent {kept : Option Bucket} : Covered rate clock none kept
  | present {last level since kept : ℚ} (solvent : 0 ≤ level) (keptSolvent : 0 ≤ kept)
      (ordered : last ≤ since) (past : since ≤ clock)
      (covers : kept ≤ level + (since - last) * rate) :
      Covered rate clock (some ⟨last, level⟩) (some ⟨since, kept⟩)

theorem Covered.evict {ip : IpAddr} (covered : Covered rate clock (own ip) (shared single))
    (later : clock ≤ now) : Covered rate now (own.evict now ip) (shared.evict now single) := by
  generalize found : own ip = entry at covered
  generalize held : shared single = kept at covered
  cases covered with
  | absent =>
      rw [evict_none found]
      exact .absent
  | @present last level since kept solvent keptSolvent ordered past covers =>
      by_cases recent : now - last < idleLimit
      · have sharedRecent : now - since < idleLimit := by linarith
        rw [evict_of_recent found recent, evict_of_recent held sharedRecent]
        exact .present solvent keptSolvent ordered (past.trans later) covers
      · rw [evict_of_idle found (not_lt.mp recent)]
        exact .absent

theorem Covered.level {ip : IpAddr} (covered : Covered rate now (own ip) (shared single)) :
    shared.level single rate burst now ≤ own.level ip rate burst now := by
  generalize found : own ip = entry at covered
  generalize held : shared single = kept at covered
  cases covered with
  | absent =>
      have full : own.level ip rate burst now = burst := by
        simp [Buckets.level, found, durationSince]
      rw [full]
      exact min_le_right _ _
  | @present last level since kept solvent keptSolvent ordered past covers =>
      have ownSince : durationSince now last = now - last := max_eq_left (by linarith)
      have sharedSince : durationSince now since = now - since := max_eq_left (by linarith)
      simp only [Buckets.level, found, held, Option.getD_some, ownSince, sharedSince]
      apply min_le_min_right
      linarith

theorem Covered.charge (rated : 0 < rate) (call : Call)
    (covered : ∀ ip, Covered rate call.now (own ip) (shared single)) (ip : IpAddr) :
    Covered rate call.now
      ((own.reserveKeeping call.ip call.bytes rate burst call.now).2 ip)
      ((shared.reserveKeeping single call.bytes rate burst call.now).2 single) := by
  have bytes : (0 : ℚ) ≤ call.bytes := Nat.cast_nonneg call.bytes
  rw [Buckets.reserveKeeping_buckets, Buckets.reserveKeeping_buckets, Function.update_self]
  by_cases same : ip = call.ip
  · subst same
    have level : shared.level single rate burst call.now ≤
        own.level call.ip rate burst call.now := (covered call.ip).level
    rw [Function.update_self]
    refine .present (le_max_right _ _) (le_max_right _ _) (le_refl _) (le_refl _) ?_
    rw [sub_self, zero_mul, add_zero]
    exact max_le_max_right _ (sub_le_sub_right level _)
  · rw [Function.update_of_ne same]
    have covered := covered ip
    generalize own ip = entry at covered ⊢
    generalize held : shared single = kept at covered
    cases covered with
    | absent => exact .absent
    | @present last level since kept solvent keptSolvent ordered past covers =>
        refine .present solvent (le_max_right _ _) (ordered.trans past) (le_refl _) ?_
        have sharedSince : durationSince call.now since = call.now - since :=
          max_eq_left (by linarith)
        have found : shared.level single rate burst call.now ≤
            kept + (call.now - since) * rate := by
          simp only [Buckets.level, held, Option.getD_some, sharedSince]
          exact min_le_left _ _
        have idle : 0 ≤ (call.now - last) * rate := mul_nonneg (by linarith) rated.le
        apply max_le
        · linarith
        · linarith

variable (burst) in
theorem Covered.reserve (rated : 0 < rate) {call : Call}
    (covered : ∀ ip, Covered rate clock (own ip) (shared single)) (later : clock ≤ call.now) :
    shared.available single rate burst call.now ≤ own.available call.ip rate burst call.now ∧
      ∀ ip, Covered rate call.now ((own.reserve call.ip call.bytes rate burst call.now).2 ip)
        ((shared.reserve single call.bytes rate burst call.now).2 single) := by
  have evicted := fun ip => (covered ip).evict later
  exact ⟨(evicted call.ip).level, Covered.charge rated call evicted⟩

theorem reserve_answer (buckets : Buckets) (ip : IpAddr) (bytes : Nat) :
    (buckets.reserve ip bytes rate burst now).1 =
      if (bytes : ℚ) ≤ buckets.available ip rate burst now then none
      else some (((bytes : ℚ) - buckets.available ip rate burst now) / rate) :=
  reserveKeeping_answer (buckets.evict now) ip bytes

theorem answers_readdressed_iff (rated : 0 < rate) {calls : List Call}
    (covered : ∀ ip, Covered rate clock (own ip) (shared single))
    (later : ∀ call ∈ calls, clock ≤ call.now) (ordered : InOrder calls) :
    answers rate burst own calls = answers rate burst shared (calls.map (Call.readdress single)) ↔
      EvenWhereShared rate burst single own shared calls := by
  induction calls generalizing own shared clock with
  | nil => exact iff_of_true rfl trivial
  | cons call calls ih =>
      obtain ⟨after, ordered⟩ := List.pairwise_cons.mp ordered
      obtain ⟨fuller, left⟩ := Covered.reserve burst rated covered (later call (by simp))
      have rest := ih left after ordered
      have answered := answer_eq_iff rated call.bytes fuller
      simp only [List.map_cons, answers, EvenWhereShared, Call.readdress, List.cons.injEq, rest]
      rw [reserve_answer, reserve_answer]
      exact and_congr_left' answered

/-! ## When rotating shows -/

/-- Two addresses of one block of 64 bits ask for more than a bucket holds. -/
def rotated (address : Ipv6Addr) (bytes : Nat) : List Chunk :=
  [⟨⟨.v6 (address.fillTail 0), bytes, 0⟩, .download⟩,
    ⟨⟨.v6 (address.fillTail 0xff), bytes, 0⟩, .download⟩]

theorem normalizeForQuota_fillTail (address : Ipv6Addr) (fill : UInt8) :
    normalizeForQuota (.v6 (address.fillTail fill)) = normalizeForQuota (.v6 address) := by
  rw [normalizeForQuota_v6_eq_iff, Ipv6Addr.fillTail, List.take_append_of_le_length]
  · rw [List.take_take]
    rfl
  · simp [address.size]

theorem fillTail_ne (address : Ipv6Addr) :
    IpAddr.v6 (address.fillTail 0xff) ≠ .v6 (address.fillTail 0) := by
  intro same
  simp only [IpAddr.v6.injEq, Ipv6Addr.fillTail, Ipv6Addr.mk.injEq] at same
  have tails := List.append_cancel_left same
  exact absurd tails (by decide)

theorem fromBucket_rotated (address : Ipv6Addr) (bytes : Nat) :
    FromBucket (.v6 address) (rotated address bytes) := by
  intro chunk member
  simp only [rotated, List.mem_cons, List.not_mem_nil, or_false] at member
  rcases member with rfl | rfl
  · exact normalizeForQuota_fillTail address 0
  · exact normalizeForQuota_fillTail address 0xff

theorem not_evenWhereShared_rotated (roomy : 0 < burst) {bytes : Nat} (large : burst < bytes)
    (address : Ipv6Addr) :
    ¬EvenWhereShared rate burst (.v6 address) .empty .empty
      (callsIn .download (rotated address bytes)) := by
  intro even
  obtain ⟨-, again, -⟩ := even
  have overdrawn : ¬(bytes : ℚ) ≤ burst := not_le.mpr large
  have positive : 0 < idleLimit := by decide +kernel
  have charged : (Buckets.empty.reserve (.v6 address) bytes rate burst 0).2 (.v6 address) =
      some ⟨0, 0⟩ := by
    simp [Buckets.reserve, Buckets.available, Buckets.evict, Buckets.empty, durationSince,
      overdrawn]
  have spent : (Buckets.empty.reserve (.v6 address) bytes rate burst 0).2.available
      (.v6 address) rate burst 0 = 0 := by
    rw [Buckets.available, evict_of_recent charged (by simpa using positive)]
    simp [durationSince, roomy.le]
  have full : (Buckets.empty.reserve (.v6 (address.fillTail 0)) bytes rate burst 0).2.available
      (.v6 (address.fillTail 0xff)) rate burst 0 = burst := by
    apply available_of_evicted
    apply evict_none
    simp [Buckets.reserve, Buckets.available, Buckets.evict, Buckets.empty, durationSince,
      overdrawn, Function.update_of_ne (fillTail_ne address)]
  have same := again (by rw [spent]; exact roomy.trans large)
  rw [spent, full] at same
  exact roomy.ne' same

/-! ## Where it cannot show -/

def Buckets.Solvent (buckets : Buckets) : Prop :=
  ∀ ip bucket, buckets ip = some bucket → 0 ≤ bucket.tokens

theorem Buckets.solvent_empty : Buckets.empty.Solvent := fun _ _ found => nomatch found

theorem Buckets.Solvent.reserve {buckets : Buckets} (solvent : buckets.Solvent) (ip : IpAddr)
    (bytes : Nat) : (buckets.reserve ip bytes rate burst now).2.Solvent := by
  intro other bucket found
  rw [Buckets.reserve_eq_reserveKeeping, Buckets.reserveKeeping_buckets] at found
  by_cases same : other = ip
  · subst same
    rw [Function.update_self, Option.some.injEq] at found
    exact found ▸ le_max_right _ _
  · rw [Function.update_of_ne same] at found
    exact solvent other bucket (Option.filter_eq_some_iff.mp found).1

theorem available_of_no_burst (rated : 0 < rate) (none : burst ≤ 0) {buckets : Buckets}
    (solvent : buckets.Solvent) (ip : IpAddr) : buckets.available ip rate burst now = burst := by
  cases found : buckets.evict now ip with
  | none => exact available_of_evicted found
  | some bucket =>
      have tokens := solvent ip bucket (Option.filter_eq_some_iff.mp found).1
      have refilled : 0 ≤ durationSince now bucket.lastRefill * rate :=
        mul_nonneg (le_max_right _ _) rated.le
      rw [Buckets.available, found, Option.getD_some]
      exact min_eq_right (by linarith)

theorem evenWhereShared_of_no_burst (rated : 0 < rate) (none : burst ≤ 0) {calls : List Call}
    (ownSolvent : own.Solvent) (sharedSolvent : shared.Solvent) :
    EvenWhereShared rate burst single own shared calls := by
  induction calls generalizing own shared with
  | nil => trivial
  | cons call calls ih =>
      refine ⟨fun _ => ?_, ih (ownSolvent.reserve _ _) (sharedSolvent.reserve _ _)⟩
      rw [available_of_no_burst rated none ownSolvent, available_of_no_burst rated none sharedSolvent]

theorem fromSingle_v4 {address : Ipv4Addr} {chunks : List Chunk}
    (bucket : FromBucket (.v4 address) chunks) : fromSingle (.v4 address) chunks = chunks := by
  refine (List.map_congr_left fun chunk member => ?_).trans (List.map_id chunks)
  have same := bucket chunk member
  obtain ⟨⟨ip, bytes, now⟩, direction⟩ := chunk
  cases ip with
  | v4 other =>
      obtain rfl := (normalizeForQuota_v4_eq_iff other address).mp same
      rfl
  | v6 other => simp [normalizeForQuota] at same

/-- Downloads are not throttled, or throttled without any burst, or the bucket is one
address. -/
def RotationHidden (settings : ThrottleSettings) (single : IpAddr) : Prop :=
  (∀ rate burst, downloadLimits settings = some (rate, burst) → burst ≤ 0) ∨
    ∃ address, single = .v4 address

def Chunk.InOrder (chunks : List Chunk) : Prop := RateLimit.InOrder (chunks.map Chunk.toCall)

theorem inOrder_callsIn {chunks : List Chunk} (ordered : Chunk.InOrder chunks)
    (direction : Direction) : InOrder (callsIn direction chunks) :=
  List.Pairwise.sublist (List.Sublist.map _ List.filter_sublist) ordered

theorem downloads_same_iff {settings : ThrottleSettings} (rated : 0 < rate)
    (limited : downloadLimits settings = some (rate, burst)) {chunks : List Chunk}
    (ordered : Chunk.InOrder chunks) :
    waitsIn settings .download chunks = waitsIn settings .download (fromSingle single chunks) ↔
      EvenWhereShared rate burst single .empty .empty (callsIn .download chunks) := by
  obtain ⟨clock, later⟩ := starts_before (inOrder_callsIn ordered .download)
  rw [waitsIn_download, waitsIn_download, callsIn_fromSingle, limited]
  exact answers_readdressed_iff rated (fun _ => .absent) later (inOrder_callsIn ordered .download)

theorem downloads_same_of_unlimited {settings : ThrottleSettings}
    (unlimited : downloadLimits settings = none) (single : IpAddr) (chunks : List Chunk) :
    waitsIn settings .download chunks = waitsIn settings .download (fromSingle single chunks) := by
  rw [waitsIn_download, waitsIn_download, callsIn_fromSingle, unlimited]
  simp only [answersWith, List.map_map]
  rfl

/-- Rotating the addresses of a bucket never changes the waits of uploads.  It never
changes those of downloads exactly when they are not throttled, or without any burst, or
the bucket is one address; and in one run exactly when no address finds more than the
single one would, wherever that falls short. -/
theorem rotation_hidden_iff (settings : ThrottleSettings) (single : IpAddr)
    (rated : ∀ rate, settings.maxDownloadBytesPerSec = some rate → 0 < rate) :
    ((∀ chunks, FromBucket single chunks → Chunk.InOrder chunks → ∀ direction,
        waitsIn settings direction chunks =
          waitsIn settings direction (fromSingle single chunks)) ↔
      RotationHidden settings single) ∧
    ∀ chunks, FromBucket single chunks → Chunk.InOrder chunks →
      waitsIn settings .upload chunks = waitsIn settings .upload (fromSingle single chunks) ∧
      ∀ rate burst, downloadLimits settings = some (rate, burst) →
        (waitsIn settings .download chunks =
            waitsIn settings .download (fromSingle single chunks) ↔
          EvenWhereShared rate burst single .empty .empty (callsIn .download chunks)) := by
  have limitsRated : ∀ rate burst, downloadLimits settings = some (rate, burst) → 0 < rate := by
    intro rate burst limited
    obtain ⟨configured, found, same⟩ := Option.map_eq_some_iff.mp limited
    cases same
    exact rated _ found
  refine ⟨⟨fun hidden => ?_, fun hidden chunks bucket ordered direction => ?_⟩,
    fun chunks bucket ordered => ⟨uploads_same settings bucket, fun rate burst limited =>
      downloads_same_iff (limitsRated rate burst limited) limited ordered⟩⟩
  · cases single with
    | v4 address => exact .inr ⟨address, rfl⟩
    | v6 address =>
        refine .inl fun rate burst limited => ?_
        by_contra roomy
        obtain ⟨bytes, large⟩ := exists_nat_gt burst
        have ordered : Chunk.InOrder (rotated address bytes) := by
          simp [Chunk.InOrder, RateLimit.InOrder, rotated]
        have even := (downloads_same_iff (limitsRated rate burst limited) limited ordered).mp
          (hidden _ (fromBucket_rotated address bytes) ordered .download)
        exact not_evenWhereShared_rotated (not_le.mp roomy) large address even
  · cases direction with
    | upload => exact uploads_same settings bucket
    | download =>
        rcases hidden with burstless | ⟨address, rfl⟩
        · cases limited : downloadLimits settings with
          | none => exact downloads_same_of_unlimited limited single chunks
          | some limits =>
              obtain ⟨rate, burst⟩ := limits
              have rated := limitsRated rate burst limited
              have none := burstless rate burst limited
              exact (downloads_same_iff rated limited ordered).mpr
                (evenWhereShared_of_no_burst rated none Buckets.solvent_empty Buckets.solvent_empty)
        · rw [fromSingle_v4 bucket]

def slowDownloads : ThrottleSettings := ⟨none, none, some 1, some 1⟩

def networkAddress : Ipv6Addr := ⟨[0x20, 0x01, 0x0d, 0xb8] ++ List.replicate 12 0, rfl⟩

theorem rotation_hidden_iff_ipv4 :
    (∀ chunks, FromBucket (.v4 (.new 203 0 113 7)) chunks → Chunk.InOrder chunks → ∀ direction,
      waitsIn slowDownloads direction chunks =
        waitsIn slowDownloads direction (fromSingle (.v4 (.new 203 0 113 7)) chunks)) ↔
      RotationHidden slowDownloads (.v4 (.new 203 0 113 7)) :=
  (rotation_hidden_iff slowDownloads (.v4 (.new 203 0 113 7)) fun _ configured =>
    Option.some.inj configured ▸ by decide).1

/-- At one byte a second, the second address of a block gets its byte at once. -/
theorem rotated_download_is_free :
    FromBucket (.v6 networkAddress) (rotated networkAddress 1) ∧
      Chunk.InOrder (rotated networkAddress 1) ∧
      waitsIn slowDownloads .download (rotated networkAddress 1) = [none, none] ∧
      waitsIn slowDownloads .download
        (fromSingle (.v6 networkAddress) (rotated networkAddress 1)) = [none, some 1] := by
  refine ⟨fromBucket_rotated networkAddress 1, ?_, ?_, ?_⟩
  · simp [Chunk.InOrder, RateLimit.InOrder, rotated]
  · decide +kernel
  · decide +kernel

end Filehost.RateLimit
