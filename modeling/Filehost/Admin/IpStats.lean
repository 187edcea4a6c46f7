import Filehost.Admin.BanExpiry
import Filehost.Data.CivilDates
import Filehost.Database.Uploads

namespace Filehost.Admin

open Filehost.Data.Calendar Filehost.Database Filehost.Ip

/-! # The uploads of an address by the hour

The database filters and groups by text, the server makes up the hours again and looks each of
them up in the groups.  Both use one clock, in UTC. -/

structure HourlyUploadCount where
  hour : List Char
  count : Nat
deriving DecidableEq

def PrimitiveDateTime.ofSeconds (seconds : Int) : Option PrimitiveDateTime :=
  (Data.Calendar.ofSeconds seconds).map fun (date, time) => ⟨date, time⟩

/-- `DATE_FORMAT(upload_timestamp, '%Y-%m-%dT%H:00:00')`. -/
def bucketOf (uploadTimestamp : Int) : List Char :=
  ((Data.Calendar.ofSeconds uploadTimestamp).map fun (date, time) => hourText date time.hour).getD []

/-- `GROUP BY 1` with `COUNT(*)`. -/
def groupCounts (buckets : List (List Char)) : List (List Char × Nat) :=
  buckets.eraseDups.map fun bucket => (bucket, buckets.count bucket)

theorem whole_hour : 0 < 60 := by decide

def nowHour (now : PrimitiveDateTime) : PrimitiveDateTime where
  date := now.date
  time := ⟨now.time.hour, 0, 0, 0, now.time.hourFits, whole_hour, whole_hour, no_nanoseconds⟩

/-- The first second of the calendar of the crate for times, in the year -9999. -/
def minTimestamp : Int := -377705116800

/-- `now_hour` less some hours, which panics outside the calendar. -/
def slotOf (now : PrimitiveDateTime) (hours : Int) : Option Int :=
  let slot := (nowHour now).seconds - 3600 * hours
  if minTimestamp ≤ slot then some slot else none

/-- The key and the written hour have no text with a year before 0 that a bucket could be. -/
def hourlyCount (rfc3339 : Rfc3339) (counts : List (List Char × Nat)) (slot : Int) :
    HourlyUploadCount :=
  match PrimitiveDateTime.ofSeconds slot with
  | some stamp =>
      ⟨formatTs rfc3339 stamp, (counts.lookup (hourText stamp.date stamp.time.hour)).getD 0⟩
  | none => ⟨[], 0⟩

/-- The rows of the query.  `interval` is `NOW() - INTERVAL ? HOUR`, `NULL` being `none`. -/
def hourlyRows (interval : Int → Int → Option Int) (table : Uploads) (ip : IpAddr)
    (now : PrimitiveDateTime) (hours : Int) : List (List Char × Nat) :=
  let rows := table.rows.filter fun row =>
    decide (row.uploaderIp = toDbBytes ip) && row.active &&
      (interval now.seconds hours).any fun since => decide (since < row.uploadTimestamp)
  groupCounts (rows.map fun row => bucketOf row.uploadTimestamp)

/-- A slot outside the calendar makes the answer `none`. -/
def uploadsHourlyCounts (rfc3339 : Rfc3339) (interval : Int → Int → Option Int) (table : Uploads)
    (ip : IpAddr) (now : PrimitiveDateTime) (hours : Int) : Option (List HourlyUploadCount) :=
  let counts := hourlyRows interval table ip now hours
  (List.range hours.toNat).mapM fun (i : Nat) =>
    (slotOf now (hours - 1 - i)).map (hourlyCount rfc3339 counts)

/-- The first second of the year 1000, with which the database's timestamps begin. -/
def firstDatetime : Int := -30610224000

/-- Within its range the database subtracts exactly. -/
def IntervalDocumented (interval : Int → Int → Option Int) : Prop :=
  ∀ now hours, firstDatetime ≤ now - 3600 * hours → interval now hours = some (now - 3600 * hours)

/-! ## Groups -/

theorem lookup_groupCounts (buckets : List (List Char)) (key : List Char) :
    ((groupCounts buckets).lookup key).getD 0 = buckets.count key := by
  by_cases present : key ∈ buckets
  · rw [groupCounts, List.lookup_graph _ (List.mem_eraseDups.mpr present), Option.getD_some]
  · have absent : (groupCounts buckets).lookup key = none := by
      refine List.lookup_eq_none_iff.mpr fun group member => ?_
      obtain ⟨bucket, found, rfl⟩ := List.mem_map.mp member
      exact bne_iff_ne.mpr fun same => present (same ▸ List.mem_eraseDups.mp found)
    rw [absent, List.count_eq_zero.mpr present]
    rfl

/-! ## One hour -/

variable {rfc3339 : Rfc3339} {interval : Int → Int → Option Int} {now : PrimitiveDateTime}

/-- The uploads of the address that are active and lie in an hour, counted from 1970. -/
def uploadsOfHour (table : Uploads) (ip : IpAddr) (hour : Int) : List Upload :=
  table.rows.filter fun row =>
    decide (row.uploaderIp = toDbBytes ip) && row.active &&
      decide (3600 * hour ≤ row.uploadTimestamp ∧ row.uploadTimestamp < 3600 * (hour + 1))

theorem nowHour_seconds (now : PrimitiveDateTime) :
    (nowHour now).seconds = 3600 * (now.seconds / 3600) := by
  have minutes := now.time.minuteFits
  have seconds := now.time.secondFits
  have hours := now.time.hourFits
  simp only [nowHour, PrimitiveDateTime.seconds, Time.seconds]
  omega

theorem seconds_range (now : PrimitiveDateTime) :
    firstDay ≤ now.seconds / 86400 ∧ now.seconds / 86400 - firstDay < daysBeforeYear 10000 := by
  have minutes := now.time.minuteFits
  have seconds := now.time.secondFits
  have hours := now.time.hourFits
  have days := now.date.days_bounds
  have day : now.seconds / 86400 = now.date.days := by
    simp only [PrimitiveDateTime.seconds, Time.seconds]
    omega
  rw [day]
  exact days

/-- A moment is put in the bucket of a slot exactly when it lies in the slot's hour. -/
theorem bucketOf_eq_iff {slot : Int} {stamp : PrimitiveDateTime}
    (dated : PrimitiveDateTime.ofSeconds slot = some stamp) (uploadTimestamp : Int) :
    bucketOf uploadTimestamp = hourText stamp.date stamp.time.hour ↔
      uploadTimestamp / 3600 = slot / 3600 := by
  obtain ⟨⟨date, time⟩, found, rfl⟩ := Option.map_eq_some_iff.mp dated
  unfold bucketOf
  cases moment : Data.Calendar.ofSeconds uploadTimestamp with
  | none =>
      refine iff_of_false (fun same => absurd same (by simp [hourText])) fun same => ?_
      have day : uploadTimestamp / 86400 = slot / 86400 := by omega
      rw [Data.Calendar.ofSeconds, day, Option.map_eq_none_iff] at moment
      rw [Data.Calendar.ofSeconds, moment] at found
      cases found
  | some other => exact hourText_eq_iff moment found

/-- A filter that reaches back before a slot loses no upload of its hour. -/
theorem lookup_hourlyRows {slot since hours : Int} {stamp : PrimitiveDateTime}
    (dated : PrimitiveDateTime.ofSeconds slot = some stamp) (whole : slot = 3600 * (slot / 3600))
    (filter : interval now.seconds hours = some since) (earlier : since < slot) (table : Uploads)
    (ip : IpAddr) :
    ((hourlyRows interval table ip now hours).lookup
        (hourText stamp.date stamp.time.hour)).getD 0 =
      (uploadsOfHour table ip (slot / 3600)).length := by
  rw [hourlyRows, lookup_groupCounts, uploadsOfHour, ← List.countP_eq_length_filter,
    List.count_eq_countP, List.countP_map, List.countP_filter]
  refine congrArg₂ List.countP (funext fun row => ?_) rfl
  have bucket := bucketOf_eq_iff dated row.uploadTimestamp
  rw [Bool.eq_iff_iff]
  simp only [Function.comp_apply, filter, Option.any_some, Bool.and_eq_true, decide_eq_true_eq,
    beq_iff_eq, bucket]
  constructor
  · rintro ⟨same, ⟨uploaded, active⟩, -⟩
    exact ⟨⟨uploaded, active⟩, by omega, by omega⟩
  · rintro ⟨⟨uploaded, active⟩, begun, ended⟩
    exact ⟨by omega, ⟨uploaded, active⟩, by omega⟩

/-! ## All hours -/

theorem mapM_eq_map {α : Type u} {β : Type v} {items : List α} {step : α → Option β} {value : α → β}
    (each : ∀ item ∈ items, step item = some (value item)) :
    items.mapM step = some (items.map value) := by
  induction items with
  | nil => rfl
  | cons item items ih =>
      have rest := ih fun other member => each other (List.mem_cons_of_mem _ member)
      rw [List.mapM_cons, each item List.mem_cons_self, rest]
      rfl

theorem seconds_of_ofSeconds {seconds : Int} {stamp : PrimitiveDateTime}
    (dated : PrimitiveDateTime.ofSeconds seconds = some stamp) :
    stamp.column = stamp ∧ stamp.seconds = seconds := by
  obtain ⟨⟨date, time⟩, found, rfl⟩ := Option.map_eq_some_iff.mp dated
  obtain ⟨days, rfl⟩ := ofSeconds_eq_some found
  have ofDay := timeOfDay_seconds seconds
  refine ⟨rfl, ?_⟩
  simp only [PrimitiveDateTime.seconds, days, ofDay]
  omega

theorem slotOf_eq (now : PrimitiveDateTime) (back : Int) :
    slotOf now back =
      if minTimestamp ≤ 3600 * (now.seconds / 3600 - back) then
        some (3600 * (now.seconds / 3600 - back))
      else none := by
  have slot : (nowHour now).seconds - 3600 * back = 3600 * (now.seconds / 3600 - back) := by
    rw [nowHour_seconds]
    omega
  rw [slotOf, slot]

theorem slotOf_listed {hours back : Int} (last : back < hours)
    (reaches : firstDatetime ≤ now.seconds - 3600 * hours) :
    slotOf now back = some (3600 * (now.seconds / 3600 - back)) := by
  have held : minTimestamp ≤ 3600 * (now.seconds / 3600 - back) := by
    unfold firstDatetime at reaches
    unfold minTimestamp
    omega
  rw [slotOf_eq, if_pos held]

/-- A slot of the listed hours is written as the start of its hour, with the count of it. -/
theorem hourlyCount_exact (documented : rfc3339.Documented) (exact : IntervalDocumented interval)
    {hours back : Int} (first : 0 ≤ back) (last : back < hours)
    (reaches : firstDatetime ≤ now.seconds - 3600 * hours) (table : Uploads) (ip : IpAddr) :
    let entry := hourlyCount rfc3339 (hourlyRows interval table ip now hours)
      (3600 * (now.seconds / 3600 - back))
    (∃ shown : Stamp, entry.hour = shown.text ∧
        shown.instant = ((3600 * (now.seconds / 3600 - back) : Int) : ℚ)) ∧
      entry.count = (uploadsOfHour table ip (now.seconds / 3600 - back)).length := by
  obtain ⟨-, within⟩ := seconds_range now
  have dates : (Data.Calendar.ofSeconds (3600 * (now.seconds / 3600 - back))).isSome = true := by
    unfold firstDatetime at reaches
    refine ofSeconds_isSome ?_ ?_
    · unfold firstDay
      omega
    · omega
  obtain ⟨⟨date, time⟩, found⟩ := Option.isSome_iff_exists.mp dates
  have dated : PrimitiveDateTime.ofSeconds (3600 * (now.seconds / 3600 - back)) =
      some ⟨date, time⟩ := by
    rw [PrimitiveDateTime.ofSeconds, found]
    rfl
  have counted := lookup_hourlyRows dated (by omega) (exact now.seconds hours reaches) (by omega)
    table ip
  obtain ⟨column, denoted⟩ := seconds_of_ofSeconds dated
  obtain ⟨shown, text, instant⟩ := formatTs_column documented ⟨date, time⟩
  rw [column] at text instant
  rw [denoted] at instant
  have hour : 3600 * (now.seconds / 3600 - back) / 3600 = now.seconds / 3600 - back := by omega
  rw [hour] at counted
  dsimp only
  rw [hourlyCount, dated]
  exact ⟨⟨shown, text, instant⟩, counted⟩

/-- As long as the hours do not reach back before the database's timestamps, the answer has one
entry for each of them, in order, up to the hour that contains the current time, each with the
number of the address's active uploads of that hour. -/
theorem uploadsHourlyCounts_exact (documented : rfc3339.Documented)
    (exact : IntervalDocumented interval) (table : Uploads) (ip : IpAddr)
    (now : PrimitiveDateTime) {hours : Int} (positive : 1 ≤ hours)
    (reaches : firstDatetime ≤ now.seconds - 3600 * hours) :
    ∃ entries, uploadsHourlyCounts rfc3339 interval table ip now hours = some entries ∧
      (entries.length : Int) = hours ∧
      (3600 * (now.seconds / 3600) ≤ now.seconds ∧
        now.seconds < 3600 * (now.seconds / 3600 + 1)) ∧
      ∀ i (bound : i < entries.length),
        (∃ shown : Stamp, entries[i].hour = shown.text ∧
          shown.instant = ((3600 * (now.seconds / 3600 - (hours - 1 - i)) : Int) : ℚ)) ∧
        entries[i].count =
          (uploadsOfHour table ip (now.seconds / 3600 - (hours - 1 - i))).length := by
  refine ⟨(List.range hours.toNat).map fun (i : Nat) =>
      hourlyCount rfc3339 (hourlyRows interval table ip now hours)
        (3600 * (now.seconds / 3600 - (hours - 1 - i))),
    mapM_eq_map fun i member => ?_, ?_, ⟨by omega, by omega⟩, fun i bound => ?_⟩
  · have listed := List.mem_range.mp member
    rw [slotOf_listed (by omega) reaches]
    rfl
  · rw [List.length_map, List.length_range]
    omega
  · rw [List.length_map, List.length_range] at bound
    rw [List.getElem_map, List.getElem_range]
    exact hourlyCount_exact documented exact (by omega) (by omega) reaches table ip

/-- Before the calendar of the server the first slot alone stops the answer. -/
theorem uploadsHourlyCounts_eq_none {hours : Int} (positive : 1 ≤ hours)
    (far : 3600 * (now.seconds / 3600 - (hours - 1)) < minTimestamp) (table : Uploads)
    (ip : IpAddr) : uploadsHourlyCounts rfc3339 interval table ip now hours = none := by
  obtain ⟨later, slots⟩ : ∃ later, hours.toNat = later + 1 := ⟨hours.toNat - 1, by omega⟩
  have first : slotOf now (hours - 1 - (0 : Nat)) = none := by
    rw [Int.natCast_zero, Int.sub_zero, slotOf_eq, if_neg (not_le.mpr far)]
  rw [uploadsHourlyCounts, slots, List.range_succ_eq_map, List.mapM_cons, first]
  rfl

def exactInterval (now hours : Int) : Option Int := some (now - 3600 * hours)

def homeIp : IpAddr := .v4 ⟨[127, 0, 0, 1], rfl⟩

/-- An upload in the last hour before the new year. -/
def lateUpload : Uploads where
  rows := [⟨Store.Uuid.nil, 1893454200, 1900000000, none, [], [], 0, none, toDbBytes homeIp, none,
    none⟩]
  distinct := List.nodup_singleton _

theorem uploadsHourlyCounts_exact_newYear :
    ∃ entries, uploadsHourlyCounts plainRfc3339 exactInterval lateUpload homeIp newYearStored 2 =
        some entries ∧
      ∃ bound : 0 < entries.length, entries[0].count = 1 := by
  obtain ⟨entries, answered, length, -, each⟩ :=
    uploadsHourlyCounts_exact plainRfc3339_documented (fun _ _ _ => rfl) lateUpload homeIp
      newYearStored one_le_two (by decide)
  have bound : 0 < entries.length := by omega
  exact ⟨entries, answered, bound, (each 0 bound).2.trans (by decide +kernel)⟩

/-- A thousand million hours before the year 2030 there is no date. -/
theorem hours_before_calendar_panic :
    uploadsHourlyCounts plainRfc3339 exactInterval lateUpload homeIp newYearStored 1000000000 =
      none :=
  uploadsHourlyCounts_eq_none (by decide) (by decide) lateUpload homeIp

end Filehost.Admin
