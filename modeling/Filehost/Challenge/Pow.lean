import Filehost.Challenge.Difficulty
import Filehost.Data.BigEndian
import Filehost.Util.Hex

namespace Filehost.Challenge

open Filehost.Data Filehost.Data.PercentEncoding Filehost.Data.TextSlices Filehost.Store
  Filehost.Util

/-! # Proof-of-work challenges

A token carries its own expiry and a code that only the holder of the key can compute.
What would end a task by a panic is an error here. -/

def randomLen : Nat := 16

def expiryLen : Nat := 8

def macLen : Nat := 32

def tokenLen : Nat := randomLen + expiryLen + macLen

structure Hashes where
  keyedHash : List UInt8 → List UInt8 → List UInt8
  keyedHash_size : ∀ key message, (keyedHash key message).length = macLen
  sha256 : List UInt8 → List UInt8

structure PowSecret where
  key : List UInt8
  size : key.length = 32

inductive Panic where
  | slice
  | splitAt
  | conversion

def toHex (bytes : List UInt8) : List Char := hexEncode bytes

/-- `&text[start..stop]`. -/
def index (text : List Char) (start stop : Nat) : Except Panic (List Char) :=
  match slice text start stop with
  | some piece => .ok piece
  | none => .error .slice

/-- The decoder, given how it indexes its text. -/
def fromHexBy {M : Type → Type} [Monad M] (index : Nat → Nat → M (List Char)) (text : List Char) :
    M (Option (List UInt8)) :=
  if byteLength text % 2 ≠ 0 ∨ !isAscii text then pure none
  else
    collect (fun start => fromStrRadix <$> index start (start + 2)) (pairStarts (byteLength text))

def fromHex (text : List Char) : Except Panic (Option (List UInt8)) := fromHexBy (index text) text

/-- The sum of the time and the lifetime wraps, as its encoding does. -/
def issue (hashes : Hashes) (secret : PowSecret) (rnd : List UInt8) (now ttlSeconds : Nat) :
    List Char :=
  let expiry := now + ttlSeconds
  let signed := rnd ++ BigEndian.encode expiryLen expiry
  let mac := hashes.keyedHash secret.key signed
  toHex (signed ++ mac)

def splitAt (bytes : List UInt8) (mid : Nat) : Except Panic (List UInt8 × List UInt8) :=
  if mid ≤ bytes.length then .ok (bytes.take mid, bytes.drop mid) else .error .splitAt

/-- `u64::from_be_bytes` of a slice that is converted to an array first. -/
def fromBeBytes (bytes : List UInt8) : Except Panic Nat :=
  if bytes.length = expiryLen then .ok (BigEndian.decode bytes) else .error .conversion

def verify (hashes : Hashes) (secret : PowSecret) (now : Nat) (token nonce : List Char)
    (difficulty : Nat) : Except Panic Bool :=
  (fromHex token).bind fun
    | none => .ok false
    | some buf =>
        if buf.length ≠ tokenLen then .ok false
        else
          (splitAt buf (randomLen + expiryLen)).bind fun parts =>
            if hashes.keyedHash secret.key parts.1 ≠ parts.2 then .ok false
            else
              (splitAt parts.1 randomLen).bind fun signed =>
                (fromBeBytes signed.2).bind fun expiry =>
                  if expiry < now then .ok false
                  else
                    let hash := hashes.sha256 (utf8Bytes (token ++ '.' :: nonce))
                    .ok (decide (difficulty ≤ leadingZeroBits hash))

/-! ## The slices -/

theorem splitAtByte_of_isAscii {text : List Char} (ascii : isAscii text = true) {position : Nat}
    (within : position ≤ text.length) :
    splitAtByte position text = some (text.take position, text.drop position) := by
  induction text generalizing position with
  | nil =>
      obtain rfl : position = 0 := Nat.le_zero.mp within
      rfl
  | cons char rest ih =>
      cases position with
      | zero => rfl
      | succ position =>
          rw [isAscii, List.all_cons, Bool.and_eq_true, decide_eq_true_iff] at ascii
          have past := splitAtByte_past char rest position
          rw [ascii.1, Nat.add_comm, ih ascii.2 (by simpa using within)] at past
          exact past

theorem index_of_isAscii {text : List Char} (ascii : isAscii text = true) {start stop : Nat}
    (ordered : start ≤ stop) (within : stop ≤ text.length) :
    ∃ piece, slice text start stop = some piece ∧ index text start stop = .ok piece := by
  have shorter : isAscii (text.drop start) = true :=
    List.all_eq_true.mpr fun char member =>
      List.all_eq_true.mp ascii char (List.mem_of_mem_drop member)
  have found : slice text start stop = some ((text.drop start).take (stop - start)) := by
    rw [slice, if_pos ordered, splitAtByte_of_isAscii ascii (ordered.trans within),
      Option.bind_some, splitAtByte_of_isAscii shorter (by rw [List.length_drop]; omega)]
    rfl
  exact ⟨_, found, by rw [index, found]⟩

theorem collect_eq_mapM {read : Nat → Except Panic (Option UInt8)} {value : Nat → Option UInt8}
    {starts : List Nat} (reads : ∀ start ∈ starts, read start = .ok (value start)) :
    collect read starts = .ok (starts.mapM value) := by
  induction starts with
  | nil => rfl
  | cons start rest ih =>
      rw [List.forall_mem_cons] at reads
      rw [collect, reads.1, List.mapM_cons]
      cases value start with
      | none => rfl
      | some byte =>
          change (collect read rest >>= fun bytes => pure (bytes.map (byte :: ·))) = _
          rw [ih reads.2]
          cases rest.mapM value <;> rfl

theorem mem_pairStarts {length start : Nat} (member : start ∈ pairStarts length) :
    start + 2 ≤ length := by
  obtain ⟨place, bound, rfl⟩ := List.mem_range'.mp member
  omega

/-- Both decoders of the program agree, and this one takes no slice that panics. -/
theorem fromHex_eq (text : List Char) : fromHex text = .ok (hexDecode text) := by
  unfold fromHex fromHexBy
  split
  · rename_i refused
    cases decoded : hexDecode text with
    | none => rfl
    | some bytes =>
        obtain ⟨accepted, -⟩ := hexDecode_eq_some_iff.mp decoded
        have ascii : isAscii text = true := List.all_eq_true.mpr fun char member => by
          rcases char_of_accepted accepted member with rfl | digit
          · rfl
          · exact decide_eq_true (hexDigits_plain digit).1
        have even : ¬byteLength text % 2 ≠ 0 := by
          intro odd
          rw [hexDecode_eq_mapM, if_pos odd] at decoded
          contradiction
        rcases refused with odd | notAscii
        · exact absurd odd even
        · rw [ascii] at notAscii
          contradiction
  · rename_i accepted
    rw [not_or] at accepted
    obtain ⟨even, notOther⟩ := accepted
    have ascii : isAscii text = true := by simpa using notOther
    rw [hexDecode_eq_mapM, if_neg even]
    apply collect_eq_mapM
    intro start member
    have within := mem_pairStarts member
    rw [byteLength_of_isAscii ascii] at within
    obtain ⟨piece, found, indexed⟩ := index_of_isAscii ascii (Nat.le_add_right start 2) within
    rw [found, indexed]
    rfl

/-! ## What is accepted -/

structure Accepts (hashes : Hashes) (secret : PowSecret) (now : Nat) (token nonce : List Char)
    (difficulty : Nat) (buf : List UInt8) : Prop where
  size : buf.length = tokenLen
  genuine : hashes.keyedHash secret.key (buf.take (randomLen + expiryLen)) =
    buf.drop (randomLen + expiryLen)
  unexpired : now ≤ BigEndian.decode ((buf.take (randomLen + expiryLen)).drop randomLen)
  solved : HasLeadingZeros difficulty (hashes.sha256 (utf8Bytes (token ++ '.' :: nonce)))

section Verify

variable {hashes : Hashes} {secret : PowSecret} {now : Nat} {token nonce : List Char}
  {difficulty : Nat}

theorem splitAt_of_le {bytes : List UInt8} {mid : Nat} (within : mid ≤ bytes.length) :
    splitAt bytes mid = .ok (bytes.take mid, bytes.drop mid) := if_pos within

variable (hashes secret now token nonce difficulty) in
/-- The token is read, checked and answered; nothing panics on the way. -/
theorem verify_returns : ∃ accepted, verify hashes secret now token nonce difficulty = .ok accepted ∧
    (accepted = true ↔ ∃ buf, hexDecode token = some buf ∧
      Accepts hashes secret now token nonce difficulty buf) := by
  unfold verify
  rw [fromHex_eq]
  cases decoded : hexDecode token with
  | none => exact ⟨false, rfl, by simp⟩
  | some buf =>
      simp only [Except.bind, Option.some.injEq, exists_eq_left']
      by_cases size : buf.length = tokenLen
      · rw [if_neg (not_not.mpr size), splitAt_of_le (by rw [size]; decide)]
        dsimp only
        by_cases genuine : hashes.keyedHash secret.key (buf.take (randomLen + expiryLen)) =
            buf.drop (randomLen + expiryLen)
        · have signedLength : (buf.take (randomLen + expiryLen)).length = randomLen + expiryLen := by
            rw [List.length_take, size]
            rfl
          have expirySize :
              ((buf.take (randomLen + expiryLen)).drop randomLen).length = expiryLen := by
            rw [List.length_drop, signedLength]
            rfl
          rw [if_neg (not_not.mpr genuine), splitAt_of_le (by rw [signedLength]; decide)]
          dsimp only
          rw [fromBeBytes, if_pos expirySize]
          dsimp only
          by_cases expired :
              BigEndian.decode ((buf.take (randomLen + expiryLen)).drop randomLen) < now
          · rw [if_pos expired]
            exact ⟨false, rfl, iff_of_false Bool.false_ne_true fun accepts =>
              absurd accepts.unexpired (Nat.not_le.mpr expired)⟩
          · rw [if_neg expired]
            refine ⟨_, rfl, ?_⟩
            rw [decide_eq_true_iff, le_leadingZeroBits_iff]
            exact ⟨fun solved => ⟨size, genuine, Nat.not_lt.mp expired, solved⟩, Accepts.solved⟩
        · rw [if_pos genuine]
          exact ⟨false, rfl, iff_of_false Bool.false_ne_true fun accepts => genuine accepts.genuine⟩
      · rw [if_pos size]
        exact ⟨false, rfl, iff_of_false Bool.false_ne_true fun accepts => size accepts.size⟩

theorem verify_eq_true_iff : verify hashes secret now token nonce difficulty = .ok true ↔
    ∃ buf, hexDecode token = some buf ∧ Accepts hashes secret now token nonce difficulty buf := by
  obtain ⟨accepted, returned, exactly⟩ :=
    verify_returns hashes secret now token nonce difficulty
  rw [returned, Except.ok.injEq, exactly]

end Verify

/-- A token that was issued, at a time at which its expiry fits its field. -/
structure Issuance where
  random : List UInt8
  size : random.length = randomLen
  issuedAt : Nat
  ttlSeconds : Nat
  fits : issuedAt + ttlSeconds < 2 ^ 64

namespace Issuance

variable (issuance : Issuance) {hashes : Hashes} {secret : PowSecret}

def expiry : Nat := issuance.issuedAt + issuance.ttlSeconds

def signed : List UInt8 := issuance.random ++ BigEndian.encode expiryLen issuance.expiry

def bytes (hashes : Hashes) (secret : PowSecret) : List UInt8 :=
  issuance.signed ++ hashes.keyedHash secret.key issuance.signed

def token (hashes : Hashes) (secret : PowSecret) : List Char :=
  issue hashes secret issuance.random issuance.issuedAt issuance.ttlSeconds

theorem signed_length : issuance.signed.length = randomLen + expiryLen := by
  rw [signed, List.length_append, issuance.size, BigEndian.encode_length]

theorem hexDecode_token : hexDecode (issuance.token hashes secret) =
    some (issuance.bytes hashes secret) :=
  hexDecode_hexEncode _

theorem decode_expiry {other : List UInt8} (same : other = issuance.signed) :
    BigEndian.decode (other.drop randomLen) = issuance.expiry := by
  have tail : issuance.signed.drop randomLen = BigEndian.encode expiryLen issuance.expiry := by
    rw [signed, ← issuance.size, List.drop_left]
  rw [same, tail]
  exact BigEndian.decode_encode issuance.fits

theorem accepts_iff {now difficulty : Nat} {token nonce : List Char} :
    Accepts hashes secret now token nonce difficulty (issuance.bytes hashes secret) ↔
    now ≤ issuance.expiry ∧
      HasLeadingZeros difficulty (hashes.sha256 (utf8Bytes (token ++ '.' :: nonce))) := by
  have front : (issuance.bytes hashes secret).take (randomLen + expiryLen) = issuance.signed := by
    rw [bytes, ← issuance.signed_length, List.take_left]
  have back : (issuance.bytes hashes secret).drop (randomLen + expiryLen) =
      hashes.keyedHash secret.key issuance.signed := by
    rw [bytes, ← issuance.signed_length, List.drop_left]
  have expires := issuance.decode_expiry front
  constructor
  · intro accepts
    exact ⟨expires ▸ accepts.unexpired, accepts.solved⟩
  · intro meets
    refine ⟨?_, ?_, expires.symm ▸ meets.1, meets.2⟩
    · rw [bytes, List.length_append, issuance.signed_length, hashes.keyedHash_size]
      rfl
    · rw [front, back]

end Issuance

/-- The code of a message can be presented only where the message was issued. -/
def Unforgeable (hashes : Hashes) (secret : PowSecret) (presentable : List UInt8 → Prop)
    (issued : Issuance → Prop) : Prop :=
  ∀ message : List UInt8, message.length = randomLen + expiryLen →
    presentable (message ++ hashes.keyedHash secret.key message) →
      ∃ issuance, issued issuance ∧ message = issuance.signed

/-- A token that was issued is accepted while it has not expired, with a nonce that solves
it.  Every text is answered, and what is accepted carries the code of its first bytes;
where codes cannot be forged, it is a token that was issued and has not expired. -/
theorem verify_exact (hashes : Hashes) (secret : PowSecret) :
    (∀ (issuance : Issuance) now nonce difficulty,
      verify hashes secret now (issuance.token hashes secret) nonce difficulty = .ok true ↔
        now ≤ issuance.issuedAt + issuance.ttlSeconds ∧
          HasLeadingZeros difficulty
            (hashes.sha256 (utf8Bytes (issuance.token hashes secret ++ '.' :: nonce)))) ∧
    (∀ now token nonce difficulty,
      ∃ accepted, verify hashes secret now token nonce difficulty = .ok accepted) ∧
    ∀ now token nonce difficulty, verify hashes secret now token nonce difficulty = .ok true →
      ∃ buf, fromHex token = .ok (some buf) ∧ buf.length = 56 ∧
        hashes.keyedHash secret.key (buf.take 24) = buf.drop 24 ∧
        ∀ presentable issued, Unforgeable hashes secret presentable issued → presentable buf →
          ∃ issuance, issued issuance ∧ buf = issuance.bytes hashes secret ∧
            now ≤ issuance.issuedAt + issuance.ttlSeconds := by
  refine ⟨fun issuance now nonce difficulty => ?_, fun now token nonce difficulty => ?_,
    fun now token nonce difficulty accepted => ?_⟩
  · rw [verify_eq_true_iff, issuance.hexDecode_token]
    simp only [Option.some.injEq, exists_eq_left', issuance.accepts_iff]
    exact Iff.rfl
  · obtain ⟨accepted, returned, -⟩ := verify_returns hashes secret now token nonce difficulty
    exact ⟨accepted, returned⟩
  · obtain ⟨buf, decoded, accepts⟩ := verify_eq_true_iff.mp accepted
    have genuine : hashes.keyedHash secret.key (buf.take 24) = buf.drop 24 := accepts.genuine
    refine ⟨buf, by rw [fromHex_eq, decoded], accepts.size, genuine, ?_⟩
    intro presentable issued unforgeable presented
    have joined : buf.take 24 ++ hashes.keyedHash secret.key (buf.take 24) = buf := by
      rw [genuine, List.take_append_drop]
    have width : (buf.take 24).length = 24 := by
      rw [List.length_take, accepts.size]
      rfl
    obtain ⟨issuance, member, same⟩ := unforgeable (buf.take 24) width (joined.symm ▸ presented)
    refine ⟨issuance, member, ?_, ?_⟩
    · rw [Issuance.bytes, ← same, joined]
    · have unexpired : now ≤ BigEndian.decode ((buf.take 24).drop randomLen) :=
        accepts.unexpired
      rwa [issuance.decode_expiry same] at unexpired

/-- Hashes that are all zero. -/
def zeroHashes : Hashes where
  keyedHash _ _ := List.replicate macLen 0
  keyedHash_size _ _ := List.length_replicate
  sha256 _ := List.replicate 32 0

def zeroSecret : PowSecret := ⟨List.replicate 32 0, rfl⟩

def firstIssuance : Issuance := ⟨List.replicate 16 0xab, rfl, 100, 60, by decide⟩

/-- The only issued token is the only one that can be presented. -/
theorem verify_exact_first :
    ∃ buf, fromHex (firstIssuance.token zeroHashes zeroSecret) = .ok (some buf) ∧
      ∃ issuance, issuance = firstIssuance ∧ buf = issuance.bytes zeroHashes zeroSecret ∧
        160 ≤ issuance.issuedAt + issuance.ttlSeconds := by
  obtain ⟨issued, -, carries⟩ := verify_exact zeroHashes zeroSecret
  have solved : HasLeadingZeros 20 (List.replicate 32 0) := by decide
  have accepted := (issued firstIssuance 160 "anything".toList 20).mpr ⟨by decide, solved⟩
  obtain ⟨buf, decoded, -, -, genuine⟩ := carries _ _ _ _ accepted
  have same : buf = firstIssuance.bytes zeroHashes zeroSecret := by
    rw [fromHex_eq, firstIssuance.hexDecode_token] at decoded
    simpa using decoded.symm
  refine ⟨buf, decoded, genuine (· = firstIssuance.bytes zeroHashes zeroSecret)
    (· = firstIssuance) ?_ same⟩
  intro message _ presented
  exact ⟨firstIssuance, rfl, List.append_cancel_right presented⟩

end Filehost.Challenge
