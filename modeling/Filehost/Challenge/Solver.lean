import Filehost.Challenge.Pow

namespace Filehost.Challenge

open Filehost.Data Filehost.Data.PercentEncoding

/-! # The solver in the browser

The server counts zero bits in a `u32`, the browser in a number of its own. -/

/-- The loop of `leading_zero_bits`.  Its counter wraps where a build with overflow checks
panics. -/
def countZeroBits (n : UInt32) : List UInt8 → UInt32
  | [] => n
  | byte :: rest =>
      if byte = 0 then countZeroBits (n + 8) rest else n + UInt32.ofNat (leadingZeros byte)

def leadingZeroBitsU32 (bytes : List UInt8) : UInt32 := countZeroBits 0 bytes

namespace Captcha

/-- `Math.clz32`. -/
def clz32 (byte : UInt8) : Nat := (byte.toBitVec.setWidth 32).clz.toNat

def countZeroBits (n : Int) : List UInt8 → Int
  | [] => n
  | byte :: rest => if byte = 0 then countZeroBits (n + 8) rest else n + (clz32 byte - 24)

def leadingZeroBits (bytes : List UInt8) : Int := countZeroBits 0 bytes

/-- `nonce++`, which stands still where the numbers of the language have no next one. -/
def increment (nonce : Nat) : Nat := if nonce < 2 ^ 53 then nonce + 1 else nonce

/-- `String(nonce)`, and the nonce in a template. -/
def nonceText (nonce : Nat) : List Char := Nat.toDigits 10 nonce

/-- The nonce at which the loop of `solve` stops, if it does within some rounds. -/
def solveFrom (sha256 : List UInt8 → List UInt8) (token : List Char) (difficulty : Nat) :
    Nat → Nat → Option Nat
  | 0, _ => none
  | rounds + 1, last =>
      let nonce := increment last
      let hash := sha256 (utf8Bytes (token ++ '.' :: nonceText nonce))
      let bits := leadingZeroBits hash
      if bits < difficulty then solveFrom sha256 token difficulty rounds nonce else some nonce

def solve (sha256 : List UInt8 → List UInt8) (token : List Char) (difficulty rounds : Nat) :
    Option Nat :=
  solveFrom sha256 token difficulty rounds 0

end Captcha

/-! ## The counters -/

theorem countZeroBits_toNat (n : UInt32) (bytes : List UInt8) :
    (countZeroBits n bytes).toNat = (n.toNat + leadingZeroBits bytes) % 2 ^ 32 := by
  induction bytes generalizing n with
  | nil => exact (Nat.mod_eq_of_lt n.toNat_lt).symm
  | cons byte rest ih =>
      rw [countZeroBits, leadingZeroBits]
      split
      · have eight : (8 : UInt32).toNat = 8 := rfl
        rw [ih, UInt32.toNat_add, eight]
        omega
      · rw [UInt32.toNat_add, UInt32.toNat_ofNat']
        omega

theorem leadingZeroBitsU32_toNat (bytes : List UInt8) :
    (leadingZeroBitsU32 bytes).toNat = leadingZeroBits bytes % 2 ^ 32 := by
  rw [leadingZeroBitsU32, countZeroBits_toNat, UInt32.toNat_zero, Nat.zero_add]

theorem clz32_eq (byte : UInt8) : Captcha.clz32 byte = 24 + leadingZeros byte :=
  LeadingZeros.clz_setWidth byte.toBitVec (by decide)

theorem captcha_countZeroBits (n : Int) (bytes : List UInt8) :
    Captcha.countZeroBits n bytes = n + leadingZeroBits bytes := by
  induction bytes generalizing n with
  | nil => simp [Captcha.countZeroBits, leadingZeroBits]
  | cons byte rest ih =>
      rw [Captcha.countZeroBits, leadingZeroBits]
      split
      · rw [ih]
        push_cast
        omega
      · rw [clz32_eq]
        push_cast
        omega

theorem captcha_leadingZeroBits (bytes : List UInt8) :
    Captcha.leadingZeroBits bytes = leadingZeroBits bytes := by
  rw [Captcha.leadingZeroBits, captcha_countZeroBits, Int.zero_add]

theorem zeros_prefix_of_le {zeros : Nat} {bytes : List UInt8}
    (leads : 8 * zeros ≤ leadingZeroBits bytes) : List.replicate zeros 0 <+: bytes := by
  induction zeros generalizing bytes with
  | zero => exact List.nil_prefix
  | succ zeros ih =>
      cases bytes with
      | nil =>
          rw [leadingZeroBits] at leads
          omega
      | cons byte rest =>
          rw [Nat.mul_succ, Nat.add_comm, add_le_leadingZeroBits_cons_iff] at leads
          obtain ⟨zero, more⟩ := leads
          rw [zero, List.replicate_succ, List.cons_prefix_cons]
          exact ⟨rfl, ih more⟩

theorem leadingZeroBits_replicate (zeros : Nat) :
    leadingZeroBits (List.replicate zeros 0) = 8 * zeros := by
  induction zeros with
  | zero => rfl
  | succ zeros ih =>
      rw [List.replicate_succ, leadingZeroBits, if_pos rfl, ih]
      omega

theorem leadingZeroBits_le (bytes : List UInt8) : leadingZeroBits bytes ≤ 8 * bytes.length := by
  induction bytes with
  | nil => exact Nat.le_refl _
  | cons byte rest ih =>
      have width := leadingZeros_le byte
      rw [leadingZeroBits, List.length_cons]
      split <;> omega

/-- As many zero bytes fill the counter of the server. -/
def counterBytes : Nat := 2 ^ 29

theorem leadingZeroBitsU32_of_not_full {bytes : List UInt8}
    (notFull : ¬List.replicate counterBytes 0 <+: bytes) :
    (leadingZeroBitsU32 bytes).toNat = leadingZeroBits bytes := by
  rw [leadingZeroBitsU32_toNat]
  refine Nat.mod_eq_of_lt (Nat.not_le.mp fun full => notFull (zeros_prefix_of_le ?_))
  rw [counterBytes]
  omega

/-! ## Solved challenges -/

theorem solveFrom_solves {sha256 : List UInt8 → List UInt8} {token : List Char}
    {difficulty rounds last nonce : Nat}
    (stops : Captcha.solveFrom sha256 token difficulty rounds last = some nonce) :
    difficulty ≤
      leadingZeroBits (sha256 (utf8Bytes (token ++ '.' :: Captcha.nonceText nonce))) := by
  induction rounds generalizing last with
  | zero => cases stops
  | succ rounds ih =>
      rw [Captcha.solveFrom] at stops
      split at stops
      · exact ih stops
      · rename_i solved
        cases stops
        rw [captcha_leadingZeroBits] at solved
        omega

theorem verify_of_solved {hashes : Hashes} {token nonce : List Char} {difficulty : Nat}
    (solved : difficulty ≤ leadingZeroBits (hashes.sha256 (utf8Bytes (token ++ '.' :: nonce))))
    (secret : PowSecret) (now : Nat) :
    verify hashes secret now token nonce difficulty = verify hashes secret now token nonce 0 := by
  simp only [verify, solved, Nat.zero_le]

/-- Both sides count the same zero bits, which bound the number of the hash.  A nonce at which the
loop stops passes the difficulty check of the server, whose other checks do not look at it. -/
theorem solver_measures_alike {bytes : List UInt8}
    (notFull : ¬List.replicate counterBytes 0 <+: bytes) {difficulty : Nat}
    (fits : difficulty ≤ 8 * bytes.length) (hashes : Hashes)
    (digest : ∀ message, (hashes.sha256 message).length = 32) :
    ((leadingZeroBitsU32 bytes).toNat : Int) = Captcha.leadingZeroBits bytes ∧
      (difficulty ≤ (leadingZeroBitsU32 bytes).toNat ↔
        BigEndian.decode bytes < 2 ^ (8 * bytes.length - difficulty)) ∧
      (difficulty ≤ Captcha.leadingZeroBits bytes ↔
        BigEndian.decode bytes < 2 ^ (8 * bytes.length - difficulty)) ∧
      ∀ token required rounds nonce,
        Captcha.solve hashes.sha256 token required rounds = some nonce →
          required ≤ (leadingZeroBitsU32 (hashes.sha256
            (utf8Bytes (token ++ '.' :: Captcha.nonceText nonce)))).toNat ∧
          ∀ secret now, verify hashes secret now token (Captcha.nonceText nonce) required =
            verify hashes secret now token (Captcha.nonceText nonce) 0 := by
  have counted := leadingZeroBitsU32_of_not_full notFull
  have bound := le_leadingZeroBits_iff_decode_lt fits
  rw [captcha_leadingZeroBits, counted]
  refine ⟨rfl, bound, ?_, fun token required rounds nonce stops => ?_⟩
  · rw [Int.ofNat_le]
    exact bound
  · have solved := solveFrom_solves stops
    refine ⟨?_, fun secret now => verify_of_solved solved secret now⟩
    have short := leadingZeroBits_le
      (hashes.sha256 (utf8Bytes (token ++ '.' :: Captcha.nonceText nonce)))
    rw [digest] at short
    rw [leadingZeroBitsU32_toNat, Nat.mod_eq_of_lt (by omega)]
    exact solved

/-- SHA-256 of `1ba.1`. -/
def knownDigest : List UInt8 :=
  [0, 6, 253, 116, 135, 198, 218, 176, 18, 254, 246, 102, 157, 63, 140, 6, 66, 32, 210, 125, 102, 2,
    253, 145, 111, 175, 107, 21, 142, 22, 116, 3]

def knownHashes : Hashes := { zeroHashes with sha256 := fun _ => knownDigest }

/-- The first nonce solves the challenge. -/
theorem solver_measures_alike_known :
    Captcha.solve knownHashes.sha256 "1ba".toList 12 1 = some 1 ∧
      12 ≤ (leadingZeroBitsU32 (knownHashes.sha256 (utf8Bytes "1ba.1".toList))).toNat ∧
      12 ≤ Captcha.leadingZeroBits knownDigest := by
  have notFull : ¬List.replicate counterBytes 0 <+: knownDigest := by
    intro full
    have short := full.length_le
    rw [List.length_replicate] at short
    exact absurd short (by decide)
  have solved : Captcha.solve knownHashes.sha256 "1ba".toList 12 1 = some 1 := by decide
  have fits : 12 ≤ 8 * knownDigest.length := by decide
  obtain ⟨-, -, browser, stops⟩ := solver_measures_alike notFull fits knownHashes fun _ => rfl
  exact ⟨solved, (stops _ _ _ _ solved).1, browser.mpr (by decide)⟩

/-- The counter of the server has come round to zero. -/
theorem leadingZeroBitsU32_wraps :
    ((leadingZeroBitsU32 (List.replicate counterBytes 0)).toNat : Int) ≠
        Captcha.leadingZeroBits (List.replicate counterBytes 0) ∧
      ¬(1 ≤ (leadingZeroBitsU32 (List.replicate counterBytes 0)).toNat ↔
        BigEndian.decode (List.replicate counterBytes 0) <
          2 ^ (8 * (List.replicate counterBytes (0 : UInt8)).length - 1)) := by
  have width : counterBytes = 2 ^ 29 := rfl
  have length : (List.replicate counterBytes (0 : UInt8)).length = counterBytes :=
    List.length_replicate
  have bits := leadingZeroBits_replicate counterBytes
  generalize List.replicate counterBytes (0 : UInt8) = zeros at length bits ⊢
  have wrapped : (leadingZeroBitsU32 zeros).toNat = 0 := by
    rw [leadingZeroBitsU32_toNat, bits, width]
    rfl
  constructor
  · rw [wrapped, captcha_leadingZeroBits, bits]
    omega
  · rw [wrapped, ← le_leadingZeroBits_iff_decode_lt (by omega), bits]
    omega

end Filehost.Challenge
