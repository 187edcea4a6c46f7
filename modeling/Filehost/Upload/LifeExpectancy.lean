import Filehost.Upload.Expiry
import Mathlib.Tactic.Ring

namespace Filehost.Upload

/-! # Larger files are kept no longer

Settings in the range where no part of the formula overflows. -/

structure RetentionSettings.InRange (settings : RetentionSettings) : Prop where
  ordered : settings.minFileage ≤ settings.maxFileage
  sized : 0 < settings.maxFilesize
  filesize : settings.maxFilesize < 2 ^ 44
  decays : 1 ≤ settings.decayExp
  exponent : settings.decayExp < 2 ^ 31

def maxBytes (settings : RetentionSettings) : Nat := settings.maxFilesize * 1024 * 1024

/-- What is left of the span between both ages. -/
def remaining (settings : RetentionSettings) (fileSize : Nat) : ℚ :=
  (1 - min ((fileSize : ℚ) / maxBytes settings) 1) ^ settings.decayExp

def lifeDays (settings : RetentionSettings) (fileSize : Nat) : ℚ :=
  settings.minFileage + (settings.maxFileage - settings.minFileage) * remaining settings fileSize

variable {settings : RetentionSettings}

theorem maxBytes_pos (inRange : settings.InRange) : 0 < maxBytes settings := by
  have sized := inRange.sized
  unfold maxBytes
  omega

theorem ratio_nonneg (settings : RetentionSettings) (fileSize : Nat) :
    0 ≤ min ((fileSize : ℚ) / maxBytes settings) 1 :=
  le_min (div_nonneg (Nat.cast_nonneg _) (Nat.cast_nonneg _)) zero_le_one

theorem remaining_nonneg (settings : RetentionSettings) (fileSize : Nat) :
    0 ≤ remaining settings fileSize :=
  pow_nonneg (sub_nonneg.mpr (min_le_right _ _)) _

theorem remaining_le_one (settings : RetentionSettings) (fileSize : Nat) :
    remaining settings fileSize ≤ 1 := by
  have nonneg := ratio_nonneg settings fileSize
  exact pow_le_one₀ (sub_nonneg.mpr (min_le_right _ _)) (by linarith)

theorem remaining_antitone (settings : RetentionSettings) : Antitone (remaining settings) := by
  intro smaller larger ordered
  have sizes : (smaller : ℚ) / maxBytes settings ≤ (larger : ℚ) / maxBytes settings :=
    div_le_div_of_nonneg_right (Nat.cast_le.mpr ordered) (Nat.cast_nonneg _)
  have ratios := min_le_min_right 1 sizes
  exact pow_le_pow_left₀ (sub_nonneg.mpr (min_le_right _ _)) (sub_le_sub_left ratios 1) _

theorem remaining_zero (settings : RetentionSettings) : remaining settings 0 = 1 := by
  simp [remaining]

theorem remaining_of_max (inRange : settings.InRange) {fileSize : Nat}
    (large : maxBytes settings ≤ fileSize) : remaining settings fileSize = 0 := by
  have decays := inRange.decays
  have positive : (0 : ℚ) < maxBytes settings := Nat.cast_pos.mpr (maxBytes_pos inRange)
  have whole : 1 ≤ (fileSize : ℚ) / maxBytes settings := by
    rw [le_div_iff₀ positive, one_mul]
    exact_mod_cast large
  rw [remaining, min_eq_right whole, sub_self, zero_pow (by omega)]

theorem span_nonneg (inRange : settings.InRange) :
    (0 : ℚ) ≤ settings.maxFileage - settings.minFileage :=
  sub_nonneg.mpr (Nat.cast_le.mpr inRange.ordered)

theorem lifeDays_bounds (inRange : settings.InRange) (fileSize : Nat) :
    settings.minFileage ≤ lifeDays settings fileSize ∧
      lifeDays settings fileSize ≤ settings.maxFileage := by
  have span := span_nonneg inRange
  have product := mul_nonneg span (remaining_nonneg settings fileSize)
  have part := mul_le_of_le_one_right span (remaining_le_one settings fileSize)
  unfold lifeDays
  constructor <;> linarith

theorem lifeDays_antitone (inRange : settings.InRange) : Antitone (lifeDays settings) := by
  intro smaller larger ordered
  have left := mul_le_mul_of_nonneg_left (remaining_antitone settings ordered) (span_nonneg inRange)
  unfold lifeDays
  linarith

/-! ## The formula computes it -/

theorem sizeRatio_eq (inRange : settings.InRange) (fileSize : Nat) :
    sizeRatio fileSize settings = min ((fileSize : ℚ) / maxBytes settings) 1 := by
  have small := inRange.filesize
  have positive := maxBytes_pos inRange
  have fits : settings.maxFilesize * 1024 * 1024 % usizeMod = maxBytes settings := by
    unfold maxBytes usizeMod
    omega
  simp only [sizeRatio, fits, if_neg positive.ne']

theorem toI32_decayExp (inRange : settings.InRange) :
    toI32 settings.decayExp = settings.decayExp := by
  have small := inRange.exponent
  unfold toI32
  dsimp only
  split <;> omega

theorem f64_of_small {value : ℚ} (small : value ≤ usizeMod) : F64.ofRat value = .finite value := by
  have large : (usizeMod : ℚ) ≤ f64Max := by
    have wide : (2 : ℚ) ^ 64 ≤ 2 ^ 971 := pow_le_pow_right₀ (by norm_num) (by decide)
    have scaled := mul_le_mul_of_nonneg_left wide (by norm_num : (0 : ℚ) ≤ 2 ^ 53 - 1)
    refine le_trans ?_ scaled
    unfold usizeMod
    norm_num
  exact if_pos (small.trans large)

theorem lifeExpectancyDays_eq (inRange : settings.InRange) (fileSize : Nat) :
    lifeExpectancyDays fileSize settings = .finite (lifeDays settings fileSize) := by
  have decays := inRange.decays
  have fileage : (settings.maxFileage : ℚ) ≤ usizeMod := Nat.cast_le.mpr settings.ages_lt.1.le
  have power : powi (1 - sizeRatio fileSize settings) (toI32 settings.decayExp) =
      .finite (remaining settings fileSize) := by
    rw [powi, toI32_decayExp inRange, sizeRatio_eq inRange, zpow_natCast, ← remaining,
      if_neg (fun negative => by omega)]
    refine f64_of_small ((remaining_le_one settings fileSize).trans ?_)
    unfold usizeMod
    norm_num
  rw [lifeExpectancyDays, power, mulAdd, fileageSpan_of_ordered inRange.ordered,
    Nat.cast_sub inRange.ordered]
  exact f64_of_small ((lifeDays_bounds inRange fileSize).2.trans fileage)

/-! ## Whole days -/

/-- The first second of the calendar. -/
def minTimestamp : Int := -377705116800

def wholeDays (settings : RetentionSettings) (fileSize : Nat) : Int :=
  min ⌊lifeDays settings fileSize⌋ i64Max

theorem wholeDays_antitone (inRange : settings.InRange) {smaller larger : Nat}
    (ordered : smaller ≤ larger) : wholeDays settings larger ≤ wholeDays settings smaller :=
  min_le_min_right _ (Int.floor_mono (lifeDays_antitone inRange ordered))

theorem le_wholeDays (inRange : settings.InRange) (fileSize : Nat) :
    min (settings.minFileage : Int) i64Max ≤ wholeDays settings fileSize := by
  refine min_le_min_right _ (Int.le_floor.mpr ?_)
  exact_mod_cast (lifeDays_bounds inRange fileSize).1

theorem wholeDays_le (inRange : settings.InRange) (fileSize : Nat) :
    wholeDays settings fileSize ≤ settings.maxFileage := by
  have floors := Int.floor_mono (lifeDays_bounds inRange fileSize).2
  rw [Int.floor_natCast] at floors
  exact (min_le_left _ _).trans floors

theorem calculateExpiry_eq_some_iff (inRange : settings.InRange) {fileSize : Nat} {now expiry : Int} :
    calculateExpiry fileSize settings now = some expiry ↔
      expiry = now + wholeDays settings fileSize * secondsPerDay ∧ expiry ≤ maxTimestamp := by
  unfold calculateExpiry
  rw [lifeExpectancyDays_eq inRange]
  change (if now + wholeDays settings fileSize * secondsPerDay ≤ maxTimestamp then
    some (now + wholeDays settings fileSize * secondsPerDay) else none) = some expiry ↔ _
  split
  · rename_i fits
    rw [Option.some.injEq]
    constructor
    · rintro rfl
      exact ⟨rfl, fits⟩
    · exact fun same => same.1.symm
  · rename_i late
    refine iff_of_false nofun ?_
    rintro ⟨rfl, fits⟩
    exact late fits

theorem expiry_bounds (inRange : settings.InRange) {fileSize : Nat} {now expiry : Int}
    (dated : minTimestamp ≤ now) (kept : calculateExpiry fileSize settings now = some expiry) :
    now + settings.minFileage * secondsPerDay ≤ expiry ∧
      expiry ≤ now + settings.maxFileage * secondsPerDay := by
  obtain ⟨rfl, fits⟩ := (calculateExpiry_eq_some_iff inRange).mp kept
  have lower := le_wholeDays inRange fileSize
  have upper := wholeDays_le inRange fileSize
  unfold minTimestamp secondsPerDay maxTimestamp i64Max at *
  constructor <;> omega

/-- The life of a file lies between both ages, is the longer one at size zero and the
shorter one from the largest size on, and never grows with the size.  So do the expiries,
wherever they lie in the calendar; they do when the longer age does. -/
theorem lifeExpectancy_decays (inRange : settings.InRange) :
    (∃ days : Nat → ℚ, (∀ fileSize, lifeExpectancyDays fileSize settings = .finite (days fileSize)) ∧
      Antitone days ∧
      (∀ fileSize, settings.minFileage ≤ days fileSize ∧ days fileSize ≤ settings.maxFileage) ∧
      days 0 = settings.maxFileage ∧
      ∀ fileSize, settings.maxFilesize * 1024 * 1024 ≤ fileSize →
        days fileSize = settings.minFileage) ∧
    ∀ now, minTimestamp ≤ now →
      (∀ smaller larger expiry, smaller ≤ larger →
        calculateExpiry smaller settings now = some expiry →
          ∃ earlier, calculateExpiry larger settings now = some earlier ∧
            now + settings.minFileage * secondsPerDay ≤ earlier ∧ earlier ≤ expiry ∧
            expiry ≤ now + settings.maxFileage * secondsPerDay) ∧
      (now + settings.maxFileage * secondsPerDay ≤ maxTimestamp →
        ∀ fileSize, ∃ expiry, calculateExpiry fileSize settings now = some expiry) := by
  constructor
  · refine ⟨lifeDays settings, lifeExpectancyDays_eq inRange, lifeDays_antitone inRange,
      lifeDays_bounds inRange, ?_, fun fileSize large => ?_⟩
    · rw [lifeDays, remaining_zero]
      ring
    · rw [lifeDays, remaining_of_max inRange large]
      ring
  · intro now dated
    refine ⟨fun smaller larger expiry ordered kept => ?_, fun calendar fileSize => ?_⟩
    · obtain ⟨same, fits⟩ := (calculateExpiry_eq_some_iff inRange).mp kept
      have days := wholeDays_antitone inRange ordered
      have earlier : now + wholeDays settings larger * secondsPerDay ≤ expiry := by
        unfold secondsPerDay at *
        omega
      have keptLarger := (calculateExpiry_eq_some_iff inRange).mpr ⟨rfl, earlier.trans fits⟩
      exact ⟨_, keptLarger, (expiry_bounds inRange dated keptLarger).1, earlier,
        (expiry_bounds inRange dated kept).2⟩
    · have days := wholeDays_le inRange fileSize
      refine ⟨_, (calculateExpiry_eq_some_iff inRange).mpr ⟨rfl, ?_⟩⟩
      unfold secondsPerDay at *
      omega

/-- A quarter of the largest size, and half of it. -/
theorem lifeExpectancy_decays_default :
    ∃ earlier, calculateExpiry (256 * 1024 * 1024) defaultRetention 0 = some earlier ∧
      0 + 31 * secondsPerDay ≤ earlier ∧ earlier ≤ 114 * secondsPerDay ∧
      114 * secondsPerDay ≤ 0 + 180 * secondsPerDay := by
  have inRange : defaultRetention.InRange :=
    ⟨by decide, by decide, by decide, by decide, by decide⟩
  have kept : calculateExpiry (128 * 1024 * 1024) defaultRetention 0 =
      some (114 * secondsPerDay) := by decide +kernel
  exact ((lifeExpectancy_decays inRange).2 0 (by decide)).1 _ _ _ (by decide) kept

end Filehost.Upload
