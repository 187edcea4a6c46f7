import Filehost.Cache.ChallengeCache
import Filehost.Challenge.Pow
import Filehost.Data.Refinement
import Filehost.Http.Request
import Filehost.Http.Responses

namespace Filehost.Challenge

open Filehost.Cache Filehost.Data Filehost.Data.PercentEncoding Filehost.Http Filehost.Ip
  Filehost.Util

/-! # The captcha

A client fetches a challenge, solves it and shows the solution, and its address is
exempt for a while.  The key lasts as long as the process, the rows outlive it.  The
server and the database read one clock, in whole seconds. -/

structure CaptchaSettings where
  powDifficulty : Nat
  powChallengeTtlSeconds : Nat
  challengeVerifiedTtlSeconds : Nat

structure ChallengeResponse where
  token : List Char
  difficulty : Nat

structure VerifyRequest where
  token : List Char
  nonce : List Char

def captchaChallenge (hashes : Hashes) (secret : PowSecret) (settings : CaptchaSettings)
    (rnd : List UInt8) (now : Nat) : ChallengeResponse where
  token := issue hashes secret rnd now settings.powChallengeTtlSeconds
  difficulty := settings.powDifficulty

def verifiedPage : TextResponse :=
  ⟨200, false, "Verified -- you can retry your request now.\n".toList⟩

def noAddressPage : TextResponse :=
  ⟨400, false, "400 Bad Request Could not determine your IP.".toList⟩

/-- `fails` is an error of the statement that marks the address. -/
def captchaVerify (hashes : Hashes) (secret : PowSecret) (settings : CaptchaSettings)
    (trust : XffTrust) (now : Nat) (fails : Bool) (request : HttpRequest) (body : VerifyRequest)
    (rows : VerifiedRows) : Except Panic (TextResponse × VerifiedRows) :=
  (verify hashes secret now body.token body.nonce settings.powDifficulty).map fun solved =>
    if !solved then (errorPage 403 "Challenge not solved.".toList, rows)
    else
      match extractIp request trust with
      | none => (noAddressPage, rows)
      | some ip =>
          if fails then (errorPage 500 "Something went wrong.".toList, rows)
          else
            (verifiedPage,
              upsertChallengeVerifiedIp rows now ip settings.challengeVerifiedTtlSeconds)

/-- `issued` remembers the challenges of this process. -/
structure CaptchaState where
  clock : Nat
  secret : PowSecret
  issued : List Issuance
  rows : VerifiedRows

inductive CaptchaEvent where
  | challenge (rnd : List UInt8)
  | verify (request : HttpRequest) (body : VerifyRequest) (fails : Bool)
  | elapse (seconds : Nat)
  | restart (secret : PowSecret)

section Protocol

variable (hashes : Hashes) (settings : CaptchaSettings) (trust : XffTrust)

def captchaSystem : System CaptchaState CaptchaEvent where
  enabled state event :=
    match event with
    | .challenge rnd =>
        rnd.length = randomLen ∧ state.clock + settings.powChallengeTtlSeconds < 2 ^ 64
    | .verify _ _ _ | .elapse _ | .restart _ => True
  next state event :=
    match event with
    | .challenge rnd =>
        if fits : rnd.length = randomLen ∧ state.clock + settings.powChallengeTtlSeconds < 2 ^ 64 then
          { state with
            issued := ⟨rnd, fits.1, state.clock, settings.powChallengeTtlSeconds, fits.2⟩ ::
              state.issued }
        else state
    | .verify request body fails =>
        match captchaVerify hashes state.secret settings trust state.clock fails request body
            state.rows with
        | .ok (_, rows) => { state with rows }
        | .error _ => state
    | .elapse seconds => { state with clock := state.clock + seconds }
    | .restart secret => { state with secret, issued := [] }

/-- Nobody presents the code of a message that this process did not hand out. -/
def Unforged (state : CaptchaState) : CaptchaEvent → Prop
  | .verify _ body _ =>
      Unforgeable hashes state.secret (fun bytes => hexDecode body.token = some bytes)
        (· ∈ state.issued)
  | _ => True

/-- A solution of a challenge of this process, in time, that a client at the address shows. -/
structure Solves (state : CaptchaState) (request : HttpRequest) (body : VerifyRequest)
    (fails : Bool) (address : IpAddr) : Prop where
  genuine : ∃ issuance ∈ state.issued,
    hexDecode body.token = some (issuance.bytes hashes state.secret) ∧
      state.clock ≤ issuance.expiry
  solved : HasLeadingZeros settings.powDifficulty
    (hashes.sha256 (utf8Bytes (body.token ++ '.' :: body.nonce)))
  client : ∃ ip, extractIp request trust = some ip ∧ toDbBytes ip = toDbBytes address
  works : fails = false

/-- The address was shown to be solving at the time, somewhere in the run. -/
def SolvedAt (start : CaptchaState) (events : List CaptchaEvent) (address : IpAddr) (time : Nat) :
    Prop :=
  ∃ newer request body fails older, events = newer ++ .verify request body fails :: older ∧
    Solves hashes settings trust ((captchaSystem hashes settings trust).after start older) request
      body fails address ∧
    time = ((captchaSystem hashes settings trust).after start older).clock

end Protocol

variable {hashes : Hashes} {settings : CaptchaSettings} {trust : XffTrust}
  {start state final : CaptchaState} {events : List CaptchaEvent} {address : IpAddr}

theorem solvedAt_cons {event : CaptchaEvent} {time : Nat} :
    SolvedAt hashes settings trust start (event :: events) address time ↔
      SolvedAt hashes settings trust start events address time ∨
      ∃ request body fails, event = .verify request body fails ∧
        Solves hashes settings trust ((captchaSystem hashes settings trust).after start events)
          request body fails address ∧
        time = ((captchaSystem hashes settings trust).after start events).clock := by
  constructor
  · intro solved
    obtain ⟨newer, request, body, fails, older, split, solves, same⟩ := solved
    cases newer with
    | nil =>
        cases split
        exact .inr ⟨request, body, fails, rfl, solves, same⟩
    | cons first newer =>
        cases split
        exact .inl ⟨newer, request, body, fails, older, rfl, solves, same⟩
  · rintro (⟨newer, request, body, fails, older, rfl, solves, same⟩ |
      ⟨request, body, fails, rfl, solves, same⟩)
    · exact ⟨event :: newer, request, body, fails, older, rfl, solves, same⟩
    · exact ⟨[], request, body, fails, events, rfl, solves, same⟩

/-! ## One request -/

theorem verify_iff_genuine {body : VerifyRequest}
    (unforged : Unforgeable hashes state.secret (fun bytes => hexDecode body.token = some bytes)
      (· ∈ state.issued)) :
    verify hashes state.secret state.clock body.token body.nonce settings.powDifficulty = .ok true ↔
      (∃ issuance ∈ state.issued,
        hexDecode body.token = some (issuance.bytes hashes state.secret) ∧
          state.clock ≤ issuance.expiry) ∧
      HasLeadingZeros settings.powDifficulty
        (hashes.sha256 (utf8Bytes (body.token ++ '.' :: body.nonce))) := by
  rw [verify_eq_true_iff]
  constructor
  · intro accepted
    obtain ⟨buf, decoded, accepts⟩ := accepted
    have joined : buf.take (randomLen + expiryLen) ++
        hashes.keyedHash state.secret.key (buf.take (randomLen + expiryLen)) = buf := by
      rw [accepts.genuine, List.take_append_drop]
    have width : (buf.take (randomLen + expiryLen)).length = randomLen + expiryLen := by
      rw [List.length_take, accepts.size]
      rfl
    obtain ⟨issuance, member, same⟩ := unforged _ width (joined.symm ▸ decoded)
    have bytes : buf = issuance.bytes hashes state.secret := by
      rw [Issuance.bytes, ← same, joined]
    rw [bytes, issuance.accepts_iff] at accepts
    exact ⟨⟨issuance, member, by rw [decoded, bytes], accepts.1⟩, accepts.2⟩
  · intro genuine
    obtain ⟨⟨issuance, -, decoded, unexpired⟩, solved⟩ := genuine
    exact ⟨_, decoded, issuance.accepts_iff.mpr ⟨unexpired, solved⟩⟩

/-- A solution marks the address of its client. -/
theorem captchaVerify_of_solves {request : HttpRequest} {body : VerifyRequest} {fails : Bool} {ip : IpAddr}
    (unforged : Unforged hashes state (.verify request body fails))
    (solves : Solves hashes settings trust state request body fails address)
    (client : extractIp request trust = some ip) :
    captchaVerify hashes state.secret settings trust state.clock fails request body state.rows =
      .ok (verifiedPage, upsertChallengeVerifiedIp state.rows state.clock ip
        settings.challengeVerifiedTtlSeconds) := by
  have accepted := (verify_iff_genuine unforged).mpr ⟨solves.genuine, solves.solved⟩
  rw [captchaVerify, accepted, solves.works, client]
  rfl

/-- Anything else is answered with an error and leaves the rows alone. -/
theorem captchaVerify_of_not_solves {request : HttpRequest} {body : VerifyRequest} {fails : Bool}
    (unforged : Unforged hashes state (.verify request body fails))
    (unsolved : ∀ ip, ¬Solves hashes settings trust state request body fails ip) :
    ∃ page, captchaVerify hashes state.secret settings trust state.clock fails request body
      state.rows = .ok (page, state.rows) := by
  obtain ⟨accepted, returned, -⟩ := verify_returns hashes state.secret state.clock body.token
    body.nonce settings.powDifficulty
  rw [captchaVerify, returned]
  cases accepted with
  | false => exact ⟨_, rfl⟩
  | true =>
      obtain ⟨genuine, solved⟩ := (verify_iff_genuine unforged).mp returned
      cases client : extractIp request trust with
      | none => exact ⟨_, rfl⟩
      | some ip =>
          cases fails with
          | true => exact ⟨_, rfl⟩
          | false => exact absurd ⟨genuine, solved, ⟨ip, client, rfl⟩, rfl⟩ (unsolved ip)

/-- What a request makes of the row of an address. -/
theorem rows_verify {request : HttpRequest} {body : VerifyRequest} {fails : Bool}
    (unforged : Unforged hashes state (.verify request body fails)) (address : IpAddr) :
    ((captchaSystem hashes settings trust).next state (.verify request body fails)).rows
        (toDbBytes address) =
          some ((state.clock : ℚ) + settings.challengeVerifiedTtlSeconds) ∧
      Solves hashes settings trust state request body fails address ∨
    ((captchaSystem hashes settings trust).next state (.verify request body fails)).rows
        (toDbBytes address) = state.rows (toDbBytes address) ∧
      ¬Solves hashes settings trust state request body fails address := by
  by_cases some_solves : ∃ ip, Solves hashes settings trust state request body fails ip
  · obtain ⟨other, solves⟩ := some_solves
    obtain ⟨ip, client, -⟩ := solves.client
    have answered := captchaVerify_of_solves unforged solves client
    have rows : ((captchaSystem hashes settings trust).next state (.verify request body fails)).rows =
        upsertChallengeVerifiedIp state.rows state.clock ip settings.challengeVerifiedTtlSeconds := by
      simp only [captchaSystem, answered]
    rw [rows, upsertChallengeVerifiedIp]
    by_cases same : toDbBytes ip = toDbBytes address
    · rw [same, Function.update_self]
      exact .inl ⟨rfl, solves.genuine, solves.solved, ⟨ip, client, same⟩, solves.works⟩
    · rw [Function.update_of_ne (Ne.symm same)]
      refine .inr ⟨rfl, fun own => ?_⟩
      obtain ⟨found, extracted, spelled⟩ := own.client
      rw [client, Option.some.injEq] at extracted
      exact same (extracted ▸ spelled)
  · have unsolved := not_exists.mp some_solves
    obtain ⟨page, answered⟩ := captchaVerify_of_not_solves unforged unsolved
    refine .inr ⟨?_, unsolved address⟩
    simp only [captchaSystem, answered]

/-! ## Runs -/

/-- The rows are those of the latest solutions. -/
structure Recorded (hashes : Hashes) (settings : CaptchaSettings) (trust : XffTrust)
    (start : CaptchaState) (events : List CaptchaEvent) (state : CaptchaState) : Prop where
  reached : state = (captchaSystem hashes settings trust).after start events
  earlier : ∀ address time, SolvedAt hashes settings trust start events address time →
    time ≤ state.clock
  kept : ∀ address time, SolvedAt hashes settings trust start events address time →
    ∃ expires, state.rows (toDbBytes address) = some expires ∧
      (time : ℚ) + settings.challengeVerifiedTtlSeconds ≤ expires
  earned : ∀ address expires, state.rows (toDbBytes address) = some expires →
    ∃ time, SolvedAt hashes settings trust start events address time ∧
      expires = (time : ℚ) + settings.challengeVerifiedTtlSeconds

theorem clock_verify (request : HttpRequest) (body : VerifyRequest) (fails : Bool) :
    ((captchaSystem hashes settings trust).next state (.verify request body fails)).clock =
      state.clock := by
  simp only [captchaSystem]
  split <;> rfl

theorem clock_le_next (event : CaptchaEvent) :
    state.clock ≤ ((captchaSystem hashes settings trust).next state event).clock := by
  cases event with
  | challenge rnd =>
      simp only [captchaSystem]
      split <;> exact Nat.le_refl _
  | verify request body fails => exact (clock_verify request body fails).ge
  | elapse seconds => exact Nat.le_add_right _ _
  | restart secret => exact Nat.le_refl _

/-- Only a shown solution touches the rows. -/
theorem rows_next {event : CaptchaEvent}
    (quiet : ∀ request body fails, event ≠ .verify request body fails) :
    ((captchaSystem hashes settings trust).next state event).rows = state.rows := by
  cases event with
  | challenge rnd =>
      simp only [captchaSystem]
      split <;> rfl
  | verify request body fails => exact absurd rfl (quiet request body fails)
  | elapse seconds => rfl
  | restart secret => rfl

theorem Recorded.quiet {event : CaptchaEvent}
    (recorded : Recorded hashes settings trust start events state)
    (quiet : ∀ request body fails, event ≠ .verify request body fails) :
    Recorded hashes settings trust start (event :: events)
      ((captchaSystem hashes settings trust).next state event) := by
  have before {address : IpAddr} {time : Nat} :
      SolvedAt hashes settings trust start (event :: events) address time ↔
        SolvedAt hashes settings trust start events address time := by
    rw [solvedAt_cons]
    exact or_iff_left fun ⟨request, body, fails, same, _⟩ => quiet request body fails same
  refine ⟨congrArg (fun reached => (captchaSystem hashes settings trust).next reached event)
    recorded.reached, ?_, ?_, ?_⟩
  · exact fun address time solved =>
      (recorded.earlier address time (before.mp solved)).trans (clock_le_next event)
  · rw [rows_next quiet]
    exact fun address time solved => recorded.kept address time (before.mp solved)
  · rw [rows_next quiet]
    intro address expires found
    obtain ⟨time, solved, same⟩ := recorded.earned address expires found
    exact ⟨time, before.mpr solved, same⟩

theorem Recorded.verify {request : HttpRequest} {body : VerifyRequest} {fails : Bool}
    (recorded : Recorded hashes settings trust start events state)
    (unforged : Unforged hashes state (.verify request body fails)) :
    Recorded hashes settings trust start (.verify request body fails :: events)
      ((captchaSystem hashes settings trust).next state (.verify request body fails)) := by
  have cons {address : IpAddr} {time : Nat} :
      SolvedAt hashes settings trust start (.verify request body fails :: events) address time ↔
        SolvedAt hashes settings trust start events address time ∨
          Solves hashes settings trust state request body fails address ∧ time = state.clock := by
    rw [solvedAt_cons, ← recorded.reached]
    constructor
    · rintro (earlier | ⟨_, _, _, same, solves⟩)
      · exact .inl earlier
      · cases same
        exact .inr solves
    · rintro (earlier | solves)
      · exact .inl earlier
      · exact .inr ⟨request, body, fails, rfl, solves⟩
  refine ⟨congrArg (fun reached => (captchaSystem hashes settings trust).next reached _)
    recorded.reached, ?_, ?_, ?_⟩
  · intro address time solved
    refine Nat.le_trans ?_ (clock_le_next (.verify request body fails))
    rcases cons.mp solved with earlier | ⟨-, rfl⟩
    · exact recorded.earlier address time earlier
    · exact Nat.le_refl _
  · intro address time solved
    rcases rows_verify unforged address with ⟨marked, -⟩ | ⟨same, unsolved⟩
    · refine ⟨_, marked, ?_⟩
      have past : time ≤ state.clock := by
        rcases cons.mp solved with earlier | ⟨-, rfl⟩
        · exact recorded.earlier address time earlier
        · exact Nat.le_refl _
      have cast : (time : ℚ) ≤ state.clock := Nat.cast_le.mpr past
      linarith
    · rw [same]
      rcases cons.mp solved with earlier | ⟨solves, -⟩
      · exact recorded.kept address time earlier
      · exact absurd solves unsolved
  · intro address expires found
    rcases rows_verify unforged address with ⟨marked, solves⟩ | ⟨same, -⟩
    · rw [marked, Option.some.injEq] at found
      exact ⟨state.clock, cons.mpr (.inr ⟨solves, rfl⟩), found.symm⟩
    · rw [same] at found
      obtain ⟨time, earlier, equal⟩ := recorded.earned address expires found
      exact ⟨time, cons.mpr (.inl earlier), equal⟩

theorem recorded_start (noRows : ∀ key, start.rows key = none) :
    Recorded hashes settings trust start [] start := by
  have nothing {address : IpAddr} {time : Nat} :
      ¬SolvedAt hashes settings trust start [] address time := by
    intro solved
    obtain ⟨newer, request, body, fails, older, split, -⟩ := solved
    simp at split
  refine ⟨rfl, fun _ _ solved => absurd solved nothing, fun _ _ solved => absurd solved nothing, ?_⟩
  intro address expires found
  rw [noRows] at found
  cases found

/-- Where codes are not forged, an address is exempt exactly while it is within its
lifetime since some client at it showed a solution, in time, of a challenge that the
process it was shown to had issued. -/
theorem run_verified_iff
    (run : ((captchaSystem hashes settings trust).restrict (Unforged hashes)).Run start events state)
    (noRows : ∀ key, start.rows key = none) (address : IpAddr) :
    isIpChallengeVerified state.rows state.clock address = true ↔
      ∃ time, SolvedAt hashes settings trust start events address time ∧
        state.clock < time + settings.challengeVerifiedTtlSeconds := by
  have recorded : Recorded hashes settings trust start events state := by
    refine run.invariant_with_events (recorded_start noRows) ?_
    intro events state event recorded enabled
    cases event with
    | verify request body fails => exact recorded.verify enabled.2
    | challenge rnd => exact recorded.quiet nofun
    | elapse seconds => exact recorded.quiet nofun
    | restart secret => exact recorded.quiet nofun
  rw [isIpChallengeVerified, Option.any_eq_true]
  constructor
  · intro verified
    obtain ⟨expires, found, pending⟩ := verified
    obtain ⟨time, solved, rfl⟩ := recorded.earned address expires found
    rw [decide_eq_true_eq] at pending
    exact ⟨time, solved, by exact_mod_cast pending⟩
  · intro solved
    obtain ⟨time, solved, pending⟩ := solved
    obtain ⟨expires, found, late⟩ := recorded.kept address time solved
    refine ⟨expires, found, decide_eq_true ?_⟩
    have cast : (state.clock : ℚ) < time + settings.challengeVerifiedTtlSeconds := by
      exact_mod_cast pending
    exact cast.trans_le late

/-! ## A client that follows the protocol -/

theorem secret_of_run {later : List CaptchaEvent}
    (run : (captchaSystem hashes settings trust).Run state later final)
    (sameProcess : ∀ secret, .restart secret ∉ later) : final.secret = state.secret := by
  induction run with
  | start => rfl
  | @step reached events event _ _ ih =>
      have same := ih fun secret member => sameProcess secret (List.mem_cons_of_mem _ member)
      rw [← same]
      cases event with
      | challenge rnd =>
          simp only [captchaSystem]
          split <;> rfl
      | verify request body fails =>
          simp only [captchaSystem]
          split <;> rfl
      | elapse seconds => rfl
      | restart secret => exact absurd List.mem_cons_self (sameProcess secret)

theorem isIpChallengeVerified_upsert {rows : VerifiedRows} {now : ℚ} {ip other : IpAddr} {ttlSeconds : Nat}
    (same : toDbBytes other = toDbBytes ip) (moment : ℚ) :
    isIpChallengeVerified (upsertChallengeVerifiedIp rows now ip ttlSeconds) moment other = true ↔
      moment < now + ttlSeconds := by
  simp [isIpChallengeVerified, upsertChallengeVerifiedIp, same]

/-- Whatever others do meanwhile, a challenge can be solved until it expires, by any
client and with any nonce that is good enough, unless the process ends.  The address is
then exempt for the configured time. -/
theorem challenge_solvable {rnd : List UInt8} {nonce : List Char} {later : List CaptchaEvent}
    {request : HttpRequest} {ip : IpAddr}
    (enabled : (captchaSystem hashes settings trust).enabled state (.challenge rnd))
    (run : (captchaSystem hashes settings trust).Run
      ((captchaSystem hashes settings trust).next state (.challenge rnd)) later final)
    (sameProcess : ∀ secret, .restart secret ∉ later)
    (inTime : final.clock ≤ state.clock + settings.powChallengeTtlSeconds)
    (client : extractIp request trust = some ip) :
    let response := captchaChallenge hashes state.secret settings rnd state.clock
    HasLeadingZeros response.difficulty
        (hashes.sha256 (utf8Bytes (response.token ++ '.' :: nonce))) →
      ∃ rows, captchaVerify hashes final.secret settings trust final.clock false request
          ⟨response.token, nonce⟩ final.rows = .ok (verifiedPage, rows) ∧
        ∀ other, toDbBytes other = toDbBytes ip → ∀ moment,
          isIpChallengeVerified rows moment other = true ↔
            moment < (final.clock : ℚ) + settings.challengeVerifiedTtlSeconds := by
  intro response solved
  have secret : final.secret = state.secret := by
    rw [secret_of_run run sameProcess]
    simp only [captchaSystem]
    split <;> rfl
  let issuance : Issuance :=
    ⟨rnd, enabled.1, state.clock, settings.powChallengeTtlSeconds, enabled.2⟩
  have accepted : verify hashes final.secret final.clock response.token nonce
      settings.powDifficulty = .ok true := by
    rw [secret, verify_eq_true_iff]
    exact ⟨_, issuance.hexDecode_token, issuance.accepts_iff.mpr ⟨inTime, solved⟩⟩
  refine ⟨upsertChallengeVerifiedIp final.rows final.clock ip settings.challengeVerifiedTtlSeconds,
    ?_, fun other same moment => isIpChallengeVerified_upsert same moment⟩
  rw [captchaVerify, accepted, client]
  rfl

/-! ## One visitor -/

def visitorSettings : CaptchaSettings := ⟨20, 60, 100⟩

def visitorRequest : HttpRequest := ⟨[], some (.v4 (.new 203 0 113 7))⟩

/-- The keyed BLAKE3, with a key of zeros, of sixteen bytes `0xab` and the expiry 160. -/
def visitorMac : List UInt8 :=
  [31, 156, 9, 213, 22, 214, 19, 108, 125, 90, 246, 100, 43, 132, 164, 231, 242, 215, 17, 126, 118,
    83, 129, 113, 65, 21, 139, 210, 110, 206, 165, 233]

/-- SHA-256 of the token that ends in this code, a dot and the nonce 1189332. -/
def visitorDigest : List UInt8 :=
  [0, 0, 2, 1, 125, 112, 51, 90, 177, 100, 3, 101, 147, 31, 81, 241, 28, 93, 237, 239, 191, 19, 50,
    64, 87, 37, 111, 118, 3, 58, 95, 218]

def visitorHashes : Hashes where
  keyedHash _ _ := visitorMac
  keyedHash_size _ _ := rfl
  sha256 _ := visitorDigest

def visitorBody : VerifyRequest :=
  ⟨firstIssuance.token visitorHashes zeroSecret, "1189332".toList⟩

def visitorStart : CaptchaState := ⟨100, zeroSecret, [], fun _ => none⟩

abbrev visitorSystem : System CaptchaState CaptchaEvent :=
  captchaSystem visitorHashes visitorSettings .untrusted

/-- Fetched at 100, shown at 150, and asked about at 240. -/
def visitorEvents : List CaptchaEvent :=
  [.elapse 90, .verify visitorRequest visitorBody false, .elapse 50,
    .challenge (List.replicate 16 0xab)]

theorem visitor_unforged : Unforgeable visitorHashes zeroSecret
    (fun bytes => hexDecode visitorBody.token = some bytes) (· ∈ [firstIssuance]) := by
  intro message _ presented
  refine ⟨firstIssuance, List.mem_singleton_self _, ?_⟩
  change hexDecode (firstIssuance.token visitorHashes zeroSecret) = some (message ++ _) at presented
  rw [firstIssuance.hexDecode_token, Option.some.injEq] at presented
  exact (List.append_cancel_right presented).symm

theorem visitor_solves : Solves visitorHashes visitorSettings .untrusted
    ⟨150, zeroSecret, [firstIssuance], fun _ => none⟩ visitorRequest visitorBody false
      (.v4 (.new 203 0 113 7)) where
  genuine := ⟨firstIssuance, List.mem_singleton_self _, firstIssuance.hexDecode_token, by decide⟩
  solved := by
    change HasLeadingZeros 20 visitorDigest
    decide
  client := ⟨_, rfl, rfl⟩
  works := rfl

theorem visitor_verified : isIpChallengeVerified
    (visitorSystem.after visitorStart visitorEvents).rows 240 (.v4 (.new 203 0 113 7)) = true := by
  have run : (visitorSystem.restrict (Unforged visitorHashes)).Run visitorStart visitorEvents
      (visitorSystem.after visitorStart visitorEvents) := by
    rw [← System.after_restrict (Unforged visitorHashes)]
    exact .of_admits ⟨⟨⟨⟨trivial, ⟨rfl, by decide⟩, trivial⟩, trivial, trivial⟩, trivial, visitor_unforged⟩,
      trivial, trivial⟩
  have waited : (visitorSystem.after visitorStart visitorEvents).clock =
      (visitorSystem.after visitorStart (visitorEvents.drop 1)).clock + 90 := rfl
  have clock : (visitorSystem.after visitorStart visitorEvents).clock = 240 := by
    rw [waited, visitorEvents, List.drop_one, List.tail_cons, System.after, clock_verify]
    rfl
  have verified := (run_verified_iff run (fun _ => rfl) (.v4 (.new 203 0 113 7))).mpr
    ⟨150, ⟨[.elapse 90], visitorRequest, visitorBody, false, _, rfl, visitor_solves, rfl⟩, by
      rw [clock]; decide⟩
  rwa [clock] at verified

theorem visitor_solvable : ∃ rows, captchaVerify visitorHashes zeroSecret visitorSettings .untrusted 150
    false visitorRequest visitorBody (fun _ => none) = .ok (verifiedPage, rows) := by
  have solved : HasLeadingZeros 20 visitorDigest := by decide
  obtain ⟨rows, answered, -⟩ := @challenge_solvable visitorHashes visitorSettings .untrusted visitorStart
    _ (List.replicate 16 0xab) "1189332".toList [.elapse 50] visitorRequest _ ⟨rfl, by decide⟩
    (.step .start trivial) (fun _ member => by simp at member) (by decide) rfl solved
  exact ⟨rows, answered⟩

end Filehost.Challenge
