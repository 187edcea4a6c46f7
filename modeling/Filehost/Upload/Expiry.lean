import Mathlib.Algebra.Order.Field.Rat
import Mathlib.Data.Rat.Floor
import Mathlib.Tactic.Linarith

namespace Filehost.Upload

/-! # How long an upload is kept

Floating-point numbers are rationals here, together with an infinity and a value
that is not a number.  Their rounding is left out. -/

def usizeMod : Nat := 2 ^ 64

structure RetentionSettings where
  maxFilesize : Nat
  maxFileage : Nat
  minFileage : Nat
  decayExp : Nat
  words : ∀ value ∈ [maxFilesize, maxFileage, minFileage, decayExp], value < usizeMod

inductive F64 where
  | finite (value : ℚ)
  | infinite
  | nan
deriving DecidableEq

def f64Max : ℚ := (2 ^ 53 - 1) * 2 ^ 971

def F64.ofRat (value : ℚ) : F64 := if value ≤ f64Max then .finite value else .infinite

/-- `decay_exp as i32`. -/
def toI32 (value : Nat) : Int :=
  let low : Nat := value % 2 ^ 32
  if low < 2 ^ 31 then low else (low : Int) - 2 ^ 32

def powi (base : ℚ) (exponent : Int) : F64 :=
  if base = 0 ∧ exponent < 0 then .infinite else .ofRat (base ^ exponent)

def mulAdd (offset width : ℚ) : F64 → F64
  | .finite factor => .ofRat (offset + width * factor)
  | .infinite => if width = 0 then .nan else .infinite
  | .nan => .nan

def sizeRatio (fileSize : Nat) (settings : RetentionSettings) : ℚ :=
  let maxBytes := settings.maxFilesize * 1024 * 1024 % usizeMod
  -- a quotient by zero is capped too
  if maxBytes = 0 then 1 else min ((fileSize : ℚ) / maxBytes) 1

/-- `max_fileage - min_fileage`, which wraps around where it is negative. -/
def fileageSpan (settings : RetentionSettings) : Nat :=
  (settings.maxFileage + (usizeMod - settings.minFileage)) % usizeMod

def lifeExpectancyDays (fileSize : Nat) (settings : RetentionSettings) : F64 :=
  mulAdd settings.minFileage (fileageSpan settings)
    (powi (1 - sizeRatio fileSize settings) (toI32 settings.decayExp))

def i64Max : Int := 2 ^ 63 - 1

/-- `as i64` truncates, saturates, and takes what is not a number to zero. -/
def F64.toI64 : F64 → Int
  | .finite value => min ⌊value⌋ i64Max
  | .infinite => i64Max
  | .nan => 0

def secondsPerDay : Int := 86400

def maxTimestamp : Int := 253402300799

/-- The expiry of a file uploaded at `now`, unless it lies outside the calendar,
which panics. -/
def calculateExpiry (fileSize : Nat) (settings : RetentionSettings) (now : Int) : Option Int :=
  let expiry := now + (lifeExpectancyDays fileSize settings).toI64 * secondsPerDay
  if expiry ≤ maxTimestamp then some expiry else none

theorem RetentionSettings.ages_lt (settings : RetentionSettings) :
    settings.maxFileage < usizeMod ∧ settings.minFileage < usizeMod :=
  ⟨settings.words _ (by simp), settings.words _ (by simp)⟩

theorem fileageSpan_of_ordered {settings : RetentionSettings}
    (ordered : settings.minFileage ≤ settings.maxFileage) :
    fileageSpan settings = settings.maxFileage - settings.minFileage := by
  have ages := settings.ages_lt
  unfold fileageSpan usizeMod at *
  omega

theorem default_words : ∀ value ∈ [512, 180, 31, 2], value < usizeMod := by decide

def defaultRetention : RetentionSettings := ⟨512, 180, 31, 2, default_words⟩

end Filehost.Upload
