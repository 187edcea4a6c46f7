import Mathlib.Data.List.DropRight
import Mathlib.Data.Rat.Defs
import Mathlib.Algebra.Order.Field.Basic
import Mathlib.Algebra.Order.Field.Rat
import Mathlib.Tactic.Linarith
import Mathlib.Tactic.Positivity

namespace Filehost.Data.Calendar

/-! # Dates, times of day and how they are written

Years have four digits.  A day has 86400 seconds, so that a leap second has no
place in it. -/

def isLeapYear (year : Nat) : Bool :=
  year % 4 == 0 && (year % 100 != 0 || year % 400 == 0)

def daysInMonth (year month : Nat) : Nat :=
  if month = 2 then if isLeapYear year then 29 else 28
  else if month = 4 ∨ month = 6 ∨ month = 9 ∨ month = 11 then 30
  else 31

structure Date where
  year : Nat
  month : Nat
  day : Nat
  yearFits : year < 10000
  monthFits : 1 ≤ month ∧ month ≤ 12
  dayFits : 1 ≤ day ∧ day ≤ daysInMonth year month
deriving DecidableEq

structure Time where
  hour : Nat
  minute : Nat
  second : Nat
  nanosecond : Nat
  hourFits : hour < 24
  minuteFits : minute < 60
  secondFits : second < 60
  nanosecondFits : nanosecond < 10 ^ 9
deriving DecidableEq

/-- Days from the first of January of the year 0 to that of the given year. -/
def daysBeforeYear (year : Nat) : Nat :=
  365 * year + (year + 3) / 4 - (year + 99) / 100 + (year + 399) / 400

def daysBeforeMonth (year month : Nat) : Nat :=
  ((List.range (month - 1)).map fun earlier => daysInMonth year (earlier + 1)).sum

/-- Days since the first of January 1970. -/
def Date.days (date : Date) : Int :=
  daysBeforeYear date.year + daysBeforeMonth date.year date.month + (date.day - 1) - 719528

def Time.seconds (time : Time) : Nat := 3600 * time.hour + 60 * time.minute + time.second

example : (Date.mk 1970 1 1 (by decide) (by decide) (by decide)).days = 0 := by decide

example : (Date.mk 2024 2 29 (by decide) (by decide) (by decide)).days = 19782 := by decide

/-! ## Digits -/

def twoDigits (number : Nat) : List Char :=
  [Nat.digitChar (number / 10), Nat.digitChar (number % 10)]

def fourDigits (number : Nat) : List Char := twoDigits (number / 100) ++ twoDigits (number % 100)

/-- The digits of a number with zeros in front up to a width. -/
def paddedDigits (width number : Nat) : List Char :=
  List.replicate (width - (Nat.toDigits 10 number).length) '0' ++ Nat.toDigits 10 number

/-- The fraction of a second that digits after a point denote. -/
def fraction (digits : List Char) : ℚ :=
  Nat.ofDigitChars 10 digits 0 / 10 ^ digits.length

/-- Its first nine digits, as nanoseconds. -/
def nanoseconds (digits : List Char) : Nat :=
  Nat.ofDigitChars 10 ((digits ++ List.replicate 9 '0').take 9) 0

/-- Nanoseconds as digits after a point, without zeros at the end. -/
def fractionDigits (nanosecond : Nat) : List Char :=
  (paddedDigits 9 nanosecond).rdropWhile (· == '0')

theorem ofDigitChars_paddedDigits (width number : Nat) :
    Nat.ofDigitChars 10 (paddedDigits width number) 0 = number := by
  rw [paddedDigits, Nat.ofDigitChars_append, Nat.ofDigitChars_replicate_zero, Nat.mul_zero,
    Nat.ofDigitChars_ten_toDigits]

theorem paddedDigits_length {width number : Nat} (small : number < 10 ^ width)
    (positive : 0 < width) :
    (paddedDigits width number).length = width := by
  have short := (Nat.length_toDigits_le_iff (b := 10) (n := number) (by decide) positive).mpr small
  rw [paddedDigits, List.length_append, List.length_replicate]
  omega

theorem rdropWhile_append_replicate (digits : List Char) :
    ∃ zeros, digits = digits.rdropWhile (· == '0') ++ List.replicate zeros '0' := by
  induction digits using List.reverseRecOn with
  | nil => exact ⟨0, rfl⟩
  | append_singleton digits last ih =>
      by_cases zero : last = '0'
      · obtain ⟨zeros, same⟩ := ih
        refine ⟨zeros + 1, ?_⟩
        rw [List.rdropWhile_concat_pos _ _ _ (by simp [zero]), List.replicate_succ', zero,
          ← List.append_assoc, ← same]
      · exact ⟨0, by rw [List.rdropWhile_concat_neg _ _ _ (by simp [zero])]; simp⟩

theorem nanoseconds_fractionDigits {nanosecond : Nat} (small : nanosecond < 10 ^ 9) :
    nanoseconds (fractionDigits nanosecond) = nanosecond := by
  obtain ⟨zeros, same⟩ := rdropWhile_append_replicate (paddedDigits 9 nanosecond)
  have length := paddedDigits_length small (by decide)
  have few : zeros ≤ 9 := by
    rw [same, List.length_append, List.length_replicate] at length
    omega
  have taken : (fractionDigits nanosecond ++ List.replicate 9 '0').take 9 =
      paddedDigits 9 nanosecond := by
    obtain ⟨more, nine⟩ := Nat.exists_eq_add_of_le few
    rw [nine, List.replicate_add, ← List.append_assoc, fractionDigits, ← same, ← nine,
      List.take_append_of_le_length length.ge, List.take_of_length_le length.le]
  rw [nanoseconds, taken, ofDigitChars_paddedDigits]

/-! ## Timestamps as they are written -/

inductive Zone where
  | utc (letter : Char) (known : letter = 'Z' ∨ letter = 'z')
  | ahead (hour minute : Nat) (hourFits : hour < 24) (minuteFits : minute < 60)
  | behind (hour minute : Nat) (hourFits : hour < 24) (minuteFits : minute < 60)

def Zone.text : Zone → List Char
  | .utc letter _ => [letter]
  | .ahead hour minute _ _ => '+' :: (twoDigits hour ++ ':' :: twoDigits minute)
  | .behind hour minute _ _ => '-' :: (twoDigits hour ++ ':' :: twoDigits minute)

/-- Seconds that the clock of the zone is ahead of UTC. -/
def Zone.offset : Zone → Int
  | .utc _ _ => 0
  | .ahead hour minute _ _ => 3600 * hour + 60 * minute
  | .behind hour minute _ _ => -(3600 * hour + 60 * minute)

/-- A timestamp of RFC 3339, with a fraction of any number of digits. -/
structure Stamp where
  date : Date
  separator : Char
  separates : separator = 'T' ∨ separator = 't' ∨ separator = ' '
  hour : Nat
  minute : Nat
  second : Nat
  hourFits : hour < 24
  minuteFits : minute < 60
  secondFits : second < 60
  fraction : List Char
  decimal : ∀ char ∈ fraction, char.isDigit = true
  zone : Zone

def Date.text (date : Date) : List Char :=
  fourDigits date.year ++ '-' :: (twoDigits date.month ++ '-' :: twoDigits date.day)

def Stamp.text (stamp : Stamp) : List Char :=
  stamp.date.text ++ stamp.separator :: (twoDigits stamp.hour ++ ':' :: (twoDigits stamp.minute ++
    ':' :: (twoDigits stamp.second ++
      (if stamp.fraction = [] then [] else '.' :: stamp.fraction) ++ stamp.zone.text)))

/-- The instant a timestamp denotes, in seconds since the first of January 1970. -/
def Stamp.instant (stamp : Stamp) : ℚ :=
  (86400 * stamp.date.days + (3600 * stamp.hour + 60 * stamp.minute + stamp.second) -
    stamp.zone.offset : Int) + Calendar.fraction stamp.fraction

theorem fraction_nonneg (digits : List Char) : 0 ≤ fraction digits := by
  unfold fraction
  positivity

theorem ofDigitChars_lt {digits : List Char} (decimal : ∀ char ∈ digits, char.isDigit = true) :
    Nat.ofDigitChars 10 digits 0 < 10 ^ digits.length := by
  induction digits with
  | nil => simp
  | cons char digits ih =>
      have later := ih fun other member => decimal other (by simp [member])
      have bounds := decimal char (by simp)
      simp only [Char.isDigit, Bool.and_eq_true, decide_eq_true_eq] at bounds
      have digit : char.toNat - '0'.toNat ≤ 9 := by
        have high : char.toNat ≤ 57 := bounds.2
        have zero : '0'.toNat = 48 := rfl
        omega
      have scaled := Nat.mul_le_mul_left (10 ^ digits.length) digit
      rw [Nat.ofDigitChars_cons, Nat.mul_zero, Nat.zero_add, Nat.ofDigitChars_eq_ofDigitChars_zero,
        List.length_cons, Nat.pow_succ]
      omega

theorem fraction_lt_one {digits : List Char} (decimal : ∀ char ∈ digits, char.isDigit = true) :
    fraction digits < 1 := by
  have bound : (Nat.ofDigitChars 10 digits 0 : ℚ) < 10 ^ digits.length := by
    exact_mod_cast ofDigitChars_lt decimal
  rw [fraction, div_lt_one (by positivity)]
  exact bound

theorem nanoseconds_lt {digits : List Char} (decimal : ∀ char ∈ digits, char.isDigit = true) :
    nanoseconds digits < 10 ^ 9 := by
  have taken : ∀ char ∈ (digits ++ List.replicate 9 '0').take 9, char.isDigit = true := by
    intro char member
    rcases List.mem_append.mp (List.mem_of_mem_take member) with member | member
    · exact decimal char member
    · rw [List.eq_of_mem_replicate member]
      rfl
  have bound := ofDigitChars_lt taken
  rwa [List.length_take_of_le (by simp)] at bound

theorem Zone.sixty_dvd_offset (zone : Zone) : (60 : Int) ∣ zone.offset := by
  cases zone <;> simp only [offset] <;> omega

/-- The time of day that a clock of the zone shows. -/
def Stamp.time (stamp : Stamp) : Time :=
  ⟨stamp.hour, stamp.minute, stamp.second, nanoseconds stamp.fraction, stamp.hourFits,
    stamp.minuteFits, stamp.secondFits, nanoseconds_lt stamp.decimal⟩

theorem separates_upper : 'T' = 'T' ∨ 'T' = 't' ∨ 'T' = ' ' := .inl rfl

theorem zulu_upper : 'Z' = 'Z' ∨ 'Z' = 'z' := .inl rfl

/-- The timestamp in UTC of a date and a time of day. -/
def utcStamp (date : Date) (time : Time) : Stamp where
  date := date
  separator := 'T'
  separates := separates_upper
  hour := time.hour
  minute := time.minute
  second := time.second
  hourFits := time.hourFits
  minuteFits := time.minuteFits
  secondFits := time.secondFits
  fraction := fractionDigits time.nanosecond
  decimal := by
    intro char member
    have padded := (List.rdropWhile_prefix _ _).subset member
    rcases List.mem_append.mp padded with zero | digit
    · rw [List.eq_of_mem_replicate zero]
      rfl
    · exact Nat.isDigit_of_mem_toDigits (by decide) (by decide) digit
  zone := .utc 'Z' zulu_upper

theorem utcStamp_time (date : Date) (time : Time) : (utcStamp date time).time = time := by
  simp [utcStamp, Stamp.time, nanoseconds_fractionDigits time.nanosecondFits]

theorem instant_utcStamp {date : Date} {time : Time} (whole : time.nanosecond = 0) :
    (utcStamp date time).instant = ((86400 * date.days + time.seconds : Int) : ℚ) := by
  have none : fractionDigits 0 = [] := by decide
  have zero : fraction (fractionDigits time.nanosecond) = 0 := by simp [whole, none, fraction]
  simp only [Stamp.instant, utcStamp, zero, Zone.offset, Time.seconds, add_zero, sub_zero]
  norm_cast

/-! ## Reading a timestamp -/

def digitValue (char : Char) : Nat := char.toNat - '0'.toNat

def readTwo : List Char → Option (Nat × List Char)
  | first :: second :: rest =>
      if first.isDigit && second.isDigit then
        some (10 * digitValue first + digitValue second, rest)
      else none
  | _ => none

def readChar (expected : Char) : List Char → Option (List Char)
  | char :: rest => if char = expected then some rest else none
  | [] => none

def readFraction : List Char → Option (List Char × List Char)
  | '.' :: rest =>
      let digits := rest.takeWhile Char.isDigit
      if digits = [] then none else some (digits, rest.dropWhile Char.isDigit)
  | text => some ([], text)

def readZone : List Char → Option Int
  | '+' :: rest => do
      let (hour, rest) ← readTwo rest
      let rest ← readChar ':' rest
      let (minute, rest) ← readTwo rest
      if rest = [] ∧ hour < 24 ∧ minute < 60 then some (3600 * hour + 60 * minute) else none
  | '-' :: rest => do
      let (hour, rest) ← readTwo rest
      let rest ← readChar ':' rest
      let (minute, rest) ← readTwo rest
      if rest = [] ∧ hour < 24 ∧ minute < 60 then some (-(3600 * hour + 60 * minute)) else none
  | [letter] => if letter = 'Z' ∨ letter = 'z' then some 0 else none
  | _ => none

def readDate (text : List Char) : Option (Date × List Char) := do
  let (century, text) ← readTwo text
  let (year, text) ← readTwo text
  let text ← readChar '-' text
  let (month, text) ← readTwo text
  let text ← readChar '-' text
  let (day, text) ← readTwo text
  if fits : 100 * century + year < 10000 ∧ (1 ≤ month ∧ month ≤ 12) ∧
      1 ≤ day ∧ day ≤ daysInMonth (100 * century + year) month then
    some (⟨100 * century + year, month, day, fits.1, fits.2.1, fits.2.2⟩, text)
  else none

/-- The local date and time of a timestamp, and the offset of its zone. -/
def readStamp (text : List Char) : Option (Date × Time × Int) := do
  let (date, text) ← readDate text
  let text ← match text with
    | separator :: rest =>
        if separator = 'T' ∨ separator = 't' ∨ separator = ' ' then some rest else none
    | [] => none
  let (hour, text) ← readTwo text
  let text ← readChar ':' text
  let (minute, text) ← readTwo text
  let text ← readChar ':' text
  let (second, text) ← readTwo text
  let (digits, text) ← readFraction text
  let offset ← readZone text
  if fits : hour < 24 ∧ minute < 60 ∧ second < 60 ∧ nanoseconds digits < 10 ^ 9 then
    some (date, ⟨hour, minute, second, nanoseconds digits, fits.1, fits.2.1, fits.2.2.1,
      fits.2.2.2⟩, offset)
  else none

theorem digitChar_isDigit (digit : Nat) (small : digit < 10) :
    (Nat.digitChar digit).isDigit = true ∧ digitValue (Nat.digitChar digit) = digit := by
  have all : ∀ digit < 10, (Nat.digitChar digit).isDigit = true ∧
      digitValue (Nat.digitChar digit) = digit := by decide
  exact all digit small

theorem readTwo_twoDigits (number : Nat) (small : number < 100) (rest : List Char) :
    readTwo (twoDigits number ++ rest) = some (number, rest) := by
  obtain ⟨high, highValue⟩ := digitChar_isDigit (number / 10) (by omega)
  obtain ⟨low, lowValue⟩ := digitChar_isDigit (number % 10) (by omega)
  have value : 10 * (number / 10) + number % 10 = number := Nat.div_add_mod number 10
  simp [readTwo, twoDigits, high, low, highValue, lowValue, value]

theorem readChar_self (expected : Char) (rest : List Char) :
    readChar expected (expected :: rest) = some rest := if_pos rfl

theorem readDate_text (date : Date) (rest : List Char) :
    readDate (date.text ++ rest) = some (date, rest) := by
  obtain ⟨year, month, day, yearFits, monthFits, dayFits⟩ := date
  have days : day < 100 := by
    have most : daysInMonth year month ≤ 31 := by
      unfold daysInMonth
      split
      · split <;> omega
      · split <;> omega
    omega
  have years : 100 * (year / 100) + year % 100 = year := Nat.div_add_mod year 100
  have century := readTwo_twoDigits (year / 100) (by omega)
  have inCentury := readTwo_twoDigits (year % 100) (by omega)
  have months := readTwo_twoDigits month (by omega)
  have daysRead := readTwo_twoDigits _ days
  simp only [Date.text, fourDigits, List.append_assoc, List.cons_append, readDate,
    Option.bind_eq_bind, century, inCentury, months, daysRead, Option.bind_some, readChar_self,
    years]
  rw [dif_pos ⟨yearFits, monthFits, dayFits⟩]

theorem readZone_text (zone : Zone) : readZone zone.text = some zone.offset := by
  cases zone with
  | utc letter known => rcases known with rfl | rfl <;> rfl
  | ahead hour minute hourFits minuteFits =>
      have hours := readTwo_twoDigits hour (by omega)
      have minutes := readTwo_twoDigits minute (by omega) []
      rw [List.append_nil] at minutes
      simp [Zone.text, readZone, hours, minutes, readChar_self, hourFits, minuteFits, Zone.offset]
  | behind hour minute hourFits minuteFits =>
      have hours := readTwo_twoDigits hour (by omega)
      have minutes := readTwo_twoDigits minute (by omega) []
      rw [List.append_nil] at minutes
      simp [Zone.text, readZone, hours, minutes, readChar_self, hourFits, minuteFits, Zone.offset]

theorem head?_zone_text (zone : Zone) :
    ∀ char ∈ zone.text.head?, char ≠ '.' ∧ char.isDigit = false := by
  intro char first
  cases zone with
  | utc letter known =>
      cases first
      rcases known with rfl | rfl <;> decide
  | ahead hour minute hourFits minuteFits =>
      cases first
      decide
  | behind hour minute hourFits minuteFits =>
      cases first
      decide

theorem readFraction_text {digits : List Char} (decimal : ∀ char ∈ digits, char.isDigit = true)
    (zone : Zone) :
    readFraction ((if digits = [] then [] else '.' :: digits) ++ zone.text) =
      some (digits, zone.text) := by
  have head := head?_zone_text zone
  by_cases empty : digits = []
  · rw [if_pos empty, List.nil_append, empty]
    cases text : zone.text with
    | nil => rfl
    | cons char rest =>
        have other := (head char (by simp [text])).1
        unfold readFraction
        split
        · rename_i same
          cases same
          contradiction
        · rfl
  · have ends : zone.text.takeWhile Char.isDigit = [] ∧
        zone.text.dropWhile Char.isDigit = zone.text := by
      cases text : zone.text with
      | nil => exact ⟨rfl, rfl⟩
      | cons char rest => simp [(head char (by simp [text])).2]
    have taken : (digits ++ zone.text).takeWhile Char.isDigit = digits := by
      rw [List.takeWhile_append_of_pos decimal, ends.1, List.append_nil]
    have dropped : (digits ++ zone.text).dropWhile Char.isDigit = zone.text := by
      rw [List.dropWhile_append_of_pos decimal, ends.2]
    rw [if_neg empty]
    simp only [List.cons_append, readFraction, taken, dropped, empty, ↓reduceIte]

/-- A timestamp is read as what it says. -/
theorem readStamp_text (stamp : Stamp) :
    readStamp stamp.text = some (stamp.date, stamp.time, stamp.zone.offset) := by
  have fits := And.intro stamp.hourFits (And.intro stamp.minuteFits
    (And.intro stamp.secondFits (nanoseconds_lt stamp.decimal)))
  have hours := readTwo_twoDigits stamp.hour (by omega)
  have minutes := readTwo_twoDigits stamp.minute (by omega)
  have seconds := readTwo_twoDigits stamp.second (by omega)
  simp only [Stamp.text, readStamp, readDate_text, Option.bind_eq_bind, Option.bind_some,
    stamp.separates, ↓reduceIte, hours, minutes, seconds, readChar_self, List.append_assoc,
    readFraction_text stamp.decimal, readZone_text]
  rw [dif_pos fits]
  rfl

end Filehost.Data.Calendar
