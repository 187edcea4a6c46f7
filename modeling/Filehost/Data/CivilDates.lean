import Filehost.Data.Calendar
import Mathlib.Data.Nat.Find

namespace Filehost.Data.Calendar

/-! # The date of a day

The inverse of counting days: the last year that begins by then, the last month of it that
does, and the day of that month. -/

def yearOf (number : Nat) : Nat :=
  Nat.findGreatest (fun year => daysBeforeYear year ≤ number) (number / 365)

def monthOf (year dayOfYear : Nat) : Nat :=
  Nat.findGreatest (fun month => daysBeforeMonth year (month + 1) ≤ dayOfYear) 11 + 1

def firstDay : Int := -719528

def Date.ofDays (days : Int) : Option Date :=
  let number := (days - firstDay).toNat
  let year := yearOf number
  let dayOfYear := number - daysBeforeYear year
  let month := monthOf year dayOfYear
  let day := dayOfYear - daysBeforeMonth year month + 1
  if fits : firstDay ≤ days ∧ year < 10000 ∧ (1 ≤ month ∧ month ≤ 12) ∧
      1 ≤ day ∧ day ≤ daysInMonth year month then
    some ⟨year, month, day, fits.2.1, fits.2.2.1, fits.2.2.2⟩
  else none

def yearLength (year : Nat) : Nat := if isLeapYear year then 366 else 365

theorem daysBeforeYear_succ (year : Nat) :
    daysBeforeYear (year + 1) = daysBeforeYear year + yearLength year := by
  have fours : (year + 1 + 3) / 4 = (year + 3) / 4 + if year % 4 = 0 then 1 else 0 := by
    split <;> omega
  have hundreds : (year + 1 + 99) / 100 = (year + 99) / 100 + if year % 100 = 0 then 1 else 0 := by
    split <;> omega
  have all : (year + 1 + 399) / 400 = (year + 399) / 400 + if year % 400 = 0 then 1 else 0 := by
    split <;> omega
  have leap : isLeapYear year = true ↔ year % 4 = 0 ∧ (year % 100 ≠ 0 ∨ year % 400 = 0) := by
    simp [isLeapYear]
  have enough : (year + 99) / 100 ≤ 365 * year + (year + 3) / 4 := by omega
  rw [daysBeforeYear, daysBeforeYear, fours, hundreds, all, yearLength]
  by_cases four : year % 4 = 0
  · by_cases hundred : year % 100 = 0
    · by_cases fourHundred : year % 400 = 0
      · rw [if_pos (leap.mpr ⟨four, .inr fourHundred⟩), if_pos four, if_pos hundred,
          if_pos fourHundred]
        omega
      · have common : ¬ isLeapYear year = true := fun other =>
          (leap.mp other).2.elim (fun apart => apart hundred) fourHundred
        rw [if_neg common, if_pos four, if_pos hundred, if_neg fourHundred]
        omega
    · have fourHundred : ¬ year % 400 = 0 := by omega
      rw [if_pos (leap.mpr ⟨four, .inl hundred⟩), if_pos four, if_neg hundred,
        if_neg fourHundred]
      omega
  · have hundred : ¬ year % 100 = 0 := by omega
    have fourHundred : ¬ year % 400 = 0 := by omega
    rw [if_neg fun other => four (leap.mp other).1, if_neg four, if_neg hundred,
      if_neg fourHundred]
    omega

theorem daysBeforeYear_mono {earlier later : Nat} (ordered : earlier ≤ later) :
    daysBeforeYear earlier ≤ daysBeforeYear later := by
  induction ordered with
  | refl => exact Nat.le_refl _
  | step _ ih => exact ih.trans (daysBeforeYear_succ _ ▸ Nat.le_add_right _ _)

theorem daysBeforeYear_lower (year : Nat) : 365 * year ≤ daysBeforeYear year := by
  unfold daysBeforeYear
  omega

theorem daysBeforeMonth_succ (year month : Nat) :
    daysBeforeMonth year (month + 2) =
      daysBeforeMonth year (month + 1) + daysInMonth year (month + 1) := by
  simp [daysBeforeMonth, List.range_succ]

theorem daysBeforeMonth_end (year : Nat) : daysBeforeMonth year 13 = yearLength year := by
  cases leap : isLeapYear year <;>
    simp [daysBeforeMonth, daysInMonth, yearLength, List.range_succ, leap]

theorem yearOf_spec (number : Nat) :
    daysBeforeYear (yearOf number) ≤ number ∧ number < daysBeforeYear (yearOf number + 1) := by
  constructor
  · exact Nat.findGreatest_spec (P := fun year => daysBeforeYear year ≤ number) (Nat.zero_le _)
      (Nat.zero_le _)
  · by_contra reached
    have later : daysBeforeYear (yearOf number + 1) ≤ number := Nat.le_of_not_lt reached
    have beyond : ¬ yearOf number + 1 ≤ number / 365 := fun within =>
      Nat.findGreatest_is_greatest (Nat.lt_succ_self _) within later
    have lower := daysBeforeYear_lower (yearOf number + 1)
    omega

theorem monthOf_spec {year dayOfYear : Nat} (within : dayOfYear < yearLength year) :
    (1 ≤ monthOf year dayOfYear ∧ monthOf year dayOfYear ≤ 12) ∧
      daysBeforeMonth year (monthOf year dayOfYear) ≤ dayOfYear ∧
      dayOfYear < daysBeforeMonth year (monthOf year dayOfYear) +
        daysInMonth year (monthOf year dayOfYear) := by
  have last : Nat.findGreatest (fun month => daysBeforeMonth year (month + 1) ≤ dayOfYear) 11 ≤ 11 :=
    Nat.findGreatest_le 11
  refine ⟨⟨Nat.le_add_left 1 _, Nat.succ_le_succ last⟩, ?_, ?_⟩
  · exact Nat.findGreatest_spec
      (P := fun month => daysBeforeMonth year (month + 1) ≤ dayOfYear) (Nat.zero_le _)
      (Nat.zero_le _)
  · rw [monthOf, ← daysBeforeMonth_succ]
    by_contra reached
    have later := Nat.le_of_not_lt reached
    by_cases december : Nat.findGreatest
        (fun month => daysBeforeMonth year (month + 1) ≤ dayOfYear) 11 = 11
    · rw [december, daysBeforeMonth_end] at later
      omega
    · have sooner := Nat.succ_le_of_lt (lt_of_le_of_ne last december)
      exact Nat.findGreatest_is_greatest (Nat.lt_succ_self _) sooner later

theorem days_of_ofDays {days : Int} {date : Date} (found : Date.ofDays days = some date) :
    date.days = days := by
  unfold Date.ofDays at found
  dsimp only at found
  split at found
  · rename_i fits
    obtain rfl := Option.some.inj found
    obtain ⟨begun, ended⟩ := yearOf_spec (days - firstDay).toNat
    rw [daysBeforeYear_succ] at ended
    have within : (days - firstDay).toNat - daysBeforeYear (yearOf (days - firstDay).toNat) <
        yearLength (yearOf (days - firstDay).toNat) := by omega
    obtain ⟨-, opened, -⟩ := monthOf_spec within
    have first := fits.1
    simp only [Date.days, firstDay] at *
    omega
  · cases found

theorem ofDays_isSome {days : Int} (first : firstDay ≤ days)
    (last : days - firstDay < daysBeforeYear 10000) : (Date.ofDays days).isSome = true := by
  obtain ⟨begun, ended⟩ := yearOf_spec (days - firstDay).toNat
  have early : yearOf (days - firstDay).toNat < 10000 := by
    by_contra late
    have reached := daysBeforeYear_mono (Nat.le_of_not_lt late)
    omega
  rw [daysBeforeYear_succ] at ended
  have within : (days - firstDay).toNat - daysBeforeYear (yearOf (days - firstDay).toNat) <
      yearLength (yearOf (days - firstDay).toNat) := by omega
  obtain ⟨months, opened, closed⟩ := monthOf_spec within
  unfold Date.ofDays
  dsimp only
  rw [dif_pos ⟨first, early, months, by omega, by omega⟩]
  rfl

theorem daysBeforeMonth_mono (year : Nat) {earlier later : Nat} (ordered : earlier ≤ later) :
    daysBeforeMonth year (earlier + 1) ≤ daysBeforeMonth year (later + 1) := by
  induction ordered with
  | refl => exact Nat.le_refl _
  | step _ ih => exact ih.trans (daysBeforeMonth_succ _ _ ▸ Nat.le_add_right _ _)

theorem Date.days_bounds (date : Date) :
    firstDay ≤ date.days ∧ date.days - firstDay < daysBeforeYear 10000 := by
  obtain ⟨year, month, day, yearFits, ⟨first, last⟩, ⟨opened, closed⟩⟩ := date
  obtain ⟨earlier, rfl⟩ := Nat.exists_eq_add_of_le' first
  have within : daysBeforeMonth year (earlier + 1) + daysInMonth year (earlier + 1) ≤
      daysBeforeMonth year (11 + 2) :=
    daysBeforeMonth_succ year earlier ▸ daysBeforeMonth_mono year last
  have after := daysBeforeYear_mono yearFits
  rw [daysBeforeMonth_end] at within
  rw [Nat.succ_eq_add_one, daysBeforeYear_succ] at after
  simp only [Date.days, firstDay]
  omega

/-! ## Dates and times of a count of seconds -/

theorem hour_fits (seconds : Int) : (seconds % 86400).toNat / 3600 < 24 := by omega

theorem minute_fits (seconds : Int) : (seconds % 86400).toNat / 60 % 60 < 60 :=
  Nat.mod_lt _ (by decide)

theorem second_fits (seconds : Int) : (seconds % 86400).toNat % 60 < 60 :=
  Nat.mod_lt _ (by decide)

theorem no_nanoseconds : 0 < 10 ^ 9 := by decide

def timeOfDay (seconds : Int) : Time :=
  ⟨(seconds % 86400).toNat / 3600, (seconds % 86400).toNat / 60 % 60,
    (seconds % 86400).toNat % 60, 0, hour_fits seconds, minute_fits seconds, second_fits seconds,
    no_nanoseconds⟩

def ofSeconds (seconds : Int) : Option (Date × Time) :=
  (Date.ofDays (seconds / 86400)).map fun date => (date, timeOfDay seconds)

theorem timeOfDay_seconds (seconds : Int) : ((timeOfDay seconds).seconds : Int) = seconds % 86400 := by
  simp only [timeOfDay, Time.seconds]
  omega

theorem ofSeconds_eq_some {seconds : Int} {date : Date} {time : Time}
    (found : ofSeconds seconds = some (date, time)) :
    date.days = seconds / 86400 ∧ time = timeOfDay seconds := by
  obtain ⟨_, dated, same⟩ := Option.map_eq_some_iff.mp found
  cases same
  exact ⟨days_of_ofDays dated, rfl⟩

theorem ofSeconds_isSome {seconds : Int} (first : firstDay ≤ seconds / 86400)
    (last : seconds / 86400 - firstDay < daysBeforeYear 10000) :
    (ofSeconds seconds).isSome = true := by
  rw [ofSeconds, Option.isSome_map]
  exact ofDays_isSome first last

/-! ## Hours as they are written -/

def hourText (date : Date) (hour : Nat) : List Char :=
  date.text ++ 'T' :: (twoDigits hour ++ ":00:00".toList)

theorem hourText_inj {left right : Date} {leftHour rightHour : Nat} (leftFits : leftHour < 100)
    (rightFits : rightHour < 100) (same : hourText left leftHour = hourText right rightHour) :
    left = right ∧ leftHour = rightHour := by
  have read := congrArg readDate same
  rw [hourText, hourText, readDate_text, readDate_text, Option.some.injEq, Prod.mk.injEq] at read
  have hours := congrArg readTwo (List.cons.inj read.2).2
  rw [readTwo_twoDigits _ leftFits, readTwo_twoDigits _ rightFits, Option.some.injEq,
    Prod.mk.injEq] at hours
  exact ⟨read.1, hours.1⟩

/-- Two moments are written alike exactly when they lie in one hour. -/
theorem hourText_eq_iff {left right : Int} {leftDate rightDate : Date} {leftTime rightTime : Time}
    (leftDated : ofSeconds left = some (leftDate, leftTime))
    (rightDated : ofSeconds right = some (rightDate, rightTime)) :
    hourText leftDate leftTime.hour = hourText rightDate rightTime.hour ↔
      left / 3600 = right / 3600 := by
  obtain ⟨leftDays, rfl⟩ := ofSeconds_eq_some leftDated
  obtain ⟨rightDays, rfl⟩ := ofSeconds_eq_some rightDated
  constructor
  · intro same
    obtain ⟨rfl, hours⟩ := hourText_inj (lt_trans (timeOfDay left).hourFits (by decide))
      (lt_trans (timeOfDay right).hourFits (by decide)) same
    simp only [timeOfDay] at hours
    omega
  · intro same
    have day : left / 86400 = right / 86400 := by omega
    have hours : (timeOfDay left).hour = (timeOfDay right).hour := by
      simp only [timeOfDay]
      omega
    have dates : leftDate = rightDate := by
      rw [ofSeconds, day, Option.map_eq_some_iff] at leftDated
      rw [ofSeconds, Option.map_eq_some_iff] at rightDated
      obtain ⟨date, found, dated⟩ := leftDated
      obtain ⟨other, otherFound, otherDated⟩ := rightDated
      cases dated
      cases otherDated
      exact Option.some.inj (found.symm.trans otherFound)
    rw [dates, hours]

end Filehost.Data.Calendar
