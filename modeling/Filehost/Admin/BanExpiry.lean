import Filehost.Admin.IpBans
import Filehost.Data.Calendar

namespace Filehost.Admin

open Filehost.Data.Calendar Filehost.Database Filehost.Ip

/-! # When a ban expires

The time of expiry is read from a timestamp with an offset, and kept in a column
that has none. -/

structure PrimitiveDateTime where
  date : Date
  time : Time
deriving DecidableEq

/-- A local date and time, with the seconds its clock is ahead of UTC. -/
structure OffsetDateTime where
  date : Date
  time : Time
  offset : Int
deriving DecidableEq

/-- The well-known format RFC 3339 of the crate for times. -/
structure Rfc3339 where
  parse : List Char → Option OffsetDateTime
  format : OffsetDateTime → Option (List Char)

def parseRfc3339 (rfc3339 : Rfc3339) (text : List Char) : Option PrimitiveDateTime :=
  (rfc3339.parse text).map fun moment => ⟨moment.date, moment.time⟩

def PrimitiveDateTime.assumeUtc (stamp : PrimitiveDateTime) : OffsetDateTime :=
  ⟨stamp.date, stamp.time, 0⟩

def formatTs (rfc3339 : Rfc3339) (stamp : PrimitiveDateTime) : List Char :=
  (rfc3339.format stamp.assumeUtc).getD []

/-- What is read is what is written, offset included; timestamps in UTC are read;
and a time in UTC is written without zeros at the end of its fraction. -/
structure Rfc3339.Documented (rfc3339 : Rfc3339) : Prop where
  parse_keeps : ∀ stamp moment, rfc3339.parse (Stamp.text stamp) = some moment →
    moment = ⟨stamp.date, stamp.time, stamp.zone.offset⟩
  parse_utc : ∀ date time, (rfc3339.parse (utcStamp date time).text).isSome = true
  format_utc : ∀ date time, rfc3339.format ⟨date, time, 0⟩ = some (utcStamp date time).text

/-- A `DATETIME` column keeps whole seconds. -/
def PrimitiveDateTime.column (stamp : PrimitiveDateTime) : PrimitiveDateTime :=
  { stamp with time := { stamp.time with nanosecond := 0, nanosecondFits := by decide } }

/-- The column as the statements compare it with `NOW()`, in sessions that run in UTC. -/
def PrimitiveDateTime.seconds (stamp : PrimitiveDateTime) : Int :=
  86400 * stamp.date.days + stamp.time.seconds

/-- The parsers of a request, with the one for timestamps as it is stored. -/
def requestText (rfc3339 : Rfc3339) (regexError : List Char → Option (List Char))
    (toLowercase : List Char → List Char) : RequestText :=
  ⟨regexError, fun text => (parseRfc3339 rfc3339 text).map fun stamp => stamp.column.seconds,
    toLowercase⟩

/-! ## The column and the instant -/

variable {rfc3339 : Rfc3339} {stamp : Stamp} {stored : PrimitiveDateTime}

theorem stored_of_parsed (documented : rfc3339.Documented)
    (parsed : parseRfc3339 rfc3339 stamp.text = some stored) : stored = ⟨stamp.date, stamp.time⟩ := by
  obtain ⟨moment, read, rfl⟩ := Option.map_eq_some_iff.mp parsed
  rw [documented.parse_keeps stamp moment read]

theorem instant_eq (documented : rfc3339.Documented)
    (parsed : parseRfc3339 rfc3339 stamp.text = some stored) :
    stamp.instant = ((stored.column.seconds - stamp.zone.offset : Int) : ℚ) +
      fraction stamp.fraction := by
  rw [stored_of_parsed documented parsed]
  simp only [Stamp.instant, PrimitiveDateTime.column, PrimitiveDateTime.seconds, Time.seconds,
    Stamp.time]
  norm_cast

/-- Written in UTC, and without a part of a second. -/
def WholeUtc (stamp : Stamp) : Prop := stamp.zone.offset = 0 ∧ fraction stamp.fraction = 0

theorem seconds_eq_instant_iff (documented : rfc3339.Documented)
    (parsed : parseRfc3339 rfc3339 stamp.text = some stored) :
    (stored.column.seconds : ℚ) = stamp.instant ↔ WholeUtc stamp := by
  have low := fraction_nonneg stamp.fraction
  have high := fraction_lt_one stamp.decimal
  rw [instant_eq documented parsed, Int.cast_sub]
  constructor
  · intro same
    have part : (stamp.zone.offset : ℚ) = fraction stamp.fraction := by linarith
    have none : stamp.zone.offset = 0 := by
      rw [← part] at low high
      have lowInt : 0 ≤ stamp.zone.offset := by exact_mod_cast low
      have highInt : stamp.zone.offset < 1 := by exact_mod_cast high
      omega
    exact ⟨none, by rw [← part, none, Int.cast_zero]⟩
  · intro ⟨utc, whole⟩
    rw [utc, whole, Int.cast_zero, sub_zero, add_zero]

/-- Zones are minutes apart, so that no clock of another zone makes up for a fraction. -/
theorem ends_with_instant_iff (documented : rfc3339.Documented)
    (parsed : parseRfc3339 rfc3339 stamp.text = some stored) :
    (∀ now : Int, now < stored.column.seconds ↔ (now : ℚ) < stamp.instant) ↔ WholeUtc stamp := by
  have low := fraction_nonneg stamp.fraction
  have high := fraction_lt_one stamp.decimal
  constructor
  · intro ends
    rw [← seconds_eq_instant_iff documented parsed]
    have after := (ends stored.column.seconds).not.mp (lt_irrefl _)
    have before := (ends (stored.column.seconds - 1)).mp (by omega)
    rw [instant_eq documented parsed] at after before ⊢
    push_cast at after before ⊢
    have bounds : (-1 : ℚ) < stamp.zone.offset ∧ (stamp.zone.offset : ℚ) < 2 := by
      constructor <;> linarith
    have lowInt : -1 < stamp.zone.offset := by exact_mod_cast bounds.1
    have highInt : stamp.zone.offset < 2 := by exact_mod_cast bounds.2
    have minutes := stamp.zone.sixty_dvd_offset
    have none : stamp.zone.offset = 0 := by omega
    rw [none] at after ⊢
    push_cast at after ⊢
    linarith
  · intro whole now
    rw [← (seconds_eq_instant_iff documented parsed).mpr whole]
    exact Int.cast_lt.symm

/-- What the listing shows of the column denotes the column's seconds. -/
theorem formatTs_column (documented : rfc3339.Documented) (stored : PrimitiveDateTime) :
    ∃ shown : Stamp, formatTs rfc3339 stored.column = shown.text ∧
      shown.instant = stored.column.seconds := by
  refine ⟨utcStamp stored.date stored.column.time, ?_, instant_utcStamp rfl⟩
  rw [formatTs, PrimitiveDateTime.assumeUtc, documented.format_utc]
  rfl

theorem parse_formatTs (documented : rfc3339.Documented) (stored : PrimitiveDateTime) :
    parseRfc3339 rfc3339 (formatTs rfc3339 stored) = some stored := by
  rw [formatTs, PrimitiveDateTime.assumeUtc, documented.format_utc, Option.getD_some]
  obtain ⟨moment, read⟩ := Option.isSome_iff_exists.mp (documented.parse_utc stored.date stored.time)
  rw [parseRfc3339, read, documented.parse_keeps _ _ read, utcStamp_time]
  rfl

/-! ## Bans that expire -/

section Bans

variable {text : RequestText} {request : IpBanRequest} {tables after : BanTables}
  {written : List Char}

/-- What a request with an expiry that is accepted inserts. -/
structure InsertsUntil (text : RequestText) (request : IpBanRequest) (written : List Char)
    (tables after : BanTables) : Prop where
  inserted : ∃ start stop reason blacklistId banType expires,
    request.endpoints = some (start, stop) ∧ request.banType = some banType ∧
      text.parseRfc3339 written = some expires ∧
      after = tables.insertBannedIp start stop reason (some expires) blacklistId banType

theorem addBannedIp_expiring {body : BannedIpRangeCreate}
    (expiring : body.expiresTimestamp = some written)
    (added : addBannedIp text body tables = .ok after) :
    InsertsUntil text (.api body) written tables after := by
  obtain ⟨start, stop, banType, startParsed, stopParsed, -, expiry, typed, same⟩ :=
    addBannedIp_eq_ok_iff.mp added
  have endpoints : (IpBanRequest.api body).endpoints = some (start, stop) := by
    simp [IpBanRequest.endpoints, startParsed, stopParsed]
  rw [expiring, Option.map_some] at expiry same
  cases parsed : text.parseRfc3339 written with
  | none => exact absurd (congrArg some parsed) expiry
  | some expires =>
      rw [parsed] at same
      exact ⟨start, stop, body.reason, body.blacklistId, banType, expires, endpoints,
        banType_api typed, parsed, same⟩

theorem banIpAdd_expiring {arguments : BanIpAdd} (expiring : arguments.expires = some written)
    (added : banIpAdd text arguments tables = .ok after) :
    InsertsUntil text (.cli arguments) written tables after := by
  obtain ⟨related, banType, typed, same⟩ := banIpAdd_eq_ok added
  cases parsed : text.parseRfc3339 written with
  | none => simp [banIpAdd, related, typed, expiring, parsed] at added
  | some expires =>
      rw [expiring, Option.map_some, parsed] at same
      exact ⟨arguments.start, arguments.stop, arguments.reason, none, banType, expires, rfl,
        by simp [IpBanRequest.banType, typed, Except.toOption], parsed, same⟩

theorem accept_expiring (expiring : request.expiry = some written)
    (accepted : request.accept text tables = some after) :
    InsertsUntil text request written tables after := by
  cases request with
  | api body =>
      cases added : addBannedIp text body tables with
      | error error => simp [IpBanRequest.accept, added, Except.toOption] at accepted
      | ok result =>
          simp only [IpBanRequest.accept, added, Except.toOption, Option.some.injEq] at accepted
          exact addBannedIp_expiring expiring (accepted ▸ added)
  | cli arguments =>
      cases added : banIpAdd text arguments tables with
      | error error => simp [IpBanRequest.accept, added, Except.toOption] at accepted
      | ok result =>
          simp only [IpBanRequest.accept, added, Except.toOption, Option.some.injEq] at accepted
          exact banIpAdd_expiring expiring (accepted ▸ added)

theorem isIpBanned_insertUntil (tables : BanTables) (a b client : IpAddr)
    (reason : Option (List Char)) (expires : Int) (blacklistId : Option Int) (banType : BanType)
    (now : Int) :
    (tables.insertBannedIp a b reason (some expires) blacklistId banType).isIpBanned client banType
        now =
      (tables.isIpBanned client banType now ||
        (decide (toDbBytes a ≤ toDbBytes client) && decide (toDbBytes client ≤ toDbBytes b) &&
          decide (now < expires))) := by
  simp [BanTables.isIpBanned, BanTables.insertBannedIp]

/-- A client that the range of an accepted ban matches, and no other range does. -/
structure OnlyBan (text : RequestText) (request : IpBanRequest) (tables after : BanTables)
    (client : IpAddr) (banType : BanType) : Prop where
  accepted : request.accept text tables = some after
  typed : request.banType = some banType
  matched : ∃ a b, request.endpoints = some (a, b) ∧ Matches a b client
  unmatched : ∀ now, tables.isIpBanned client banType now = false

theorem isIpBanned_onlyBan {client : IpAddr} {banType : BanType}
    (expiring : request.expiry = some written)
    (only : OnlyBan text request tables after client banType) :
    ∃ expires, text.parseRfc3339 written = some expires ∧
      ∀ now, after.isIpBanned client banType now = true ↔ now < expires := by
  obtain ⟨start, stop, reason, blacklistId, kind, expires, endpoints, typed, read, rfl⟩ :=
    (accept_expiring expiring only.accepted).inserted
  obtain ⟨a, b, same, matched⟩ := only.matched
  cases endpoints.symm.trans same
  cases typed.symm.trans only.typed
  refine ⟨expires, read, fun now => ?_⟩
  simp [isIpBanned_insertUntil, only.unmatched now, matched.1, matched.2]

end Bans

/-- The instant a ban expires at is the one its timestamp denotes, in the column, in
the listing and for the client it bans, exactly when the timestamp is in UTC and has no
part of a second.  What the listing shows is read back. -/
theorem expiry_denotes_iff (documented : rfc3339.Documented) :
    (∀ stamp stored, parseRfc3339 rfc3339 (Stamp.text stamp) = some stored →
      ((stored.column.seconds : ℚ) = stamp.instant ↔ WholeUtc stamp) ∧
      (∃ shown : Stamp, formatTs rfc3339 stored.column = shown.text ∧
        (shown.instant = stamp.instant ↔ WholeUtc stamp)) ∧
      ∀ regexError toLowercase request tables after client banType,
        request.expiry = some stamp.text →
        OnlyBan (requestText rfc3339 regexError toLowercase) request tables after client banType →
          ((∀ now : Int, after.isIpBanned client banType now = true ↔ (now : ℚ) < stamp.instant) ↔
            WholeUtc stamp)) ∧
    ∀ stored, parseRfc3339 rfc3339 (formatTs rfc3339 stored) = some stored := by
  refine ⟨fun stamp stored parsed => ⟨seconds_eq_instant_iff documented parsed, ?_, ?_⟩,
    parse_formatTs documented⟩
  · obtain ⟨shown, text, instant⟩ := formatTs_column documented stored
    rw [← seconds_eq_instant_iff documented parsed, ← instant]
    exact ⟨shown, text, Iff.rfl⟩
  · intro regexError toLowercase request tables after client banType expiring only
    obtain ⟨expires, read, bans⟩ := isIpBanned_onlyBan expiring only
    have kept : stored.column.seconds = expires := by
      simpa [requestText, parsed] using read
    rw [← ends_with_instant_iff documented parsed, kept]
    simp only [bans]

/-- A format that reads and writes as documented. -/
def plainRfc3339 : Rfc3339 where
  parse text := (readStamp text).map fun (date, time, offset) => ⟨date, time, offset⟩
  format moment := if moment.offset = 0 then some (utcStamp moment.date moment.time).text else none

theorem plainRfc3339_documented : plainRfc3339.Documented := by
  refine ⟨?_, ?_, ?_⟩
  · intro stamp moment parsed
    simp only [plainRfc3339, readStamp_text, Option.map_some, Option.some.injEq] at parsed
    exact parsed.symm
  · intro date time
    simp only [plainRfc3339, readStamp_text, Option.map_some, Option.isSome_some]
  · intro date time
    rfl

/-- Midnight at the start of the year 2030, in some zone. -/
def newYear (zone : Zone) : Stamp where
  date := ⟨2030, 1, 1, by decide, by decide, by decide⟩
  separator := 'T'
  separates := separates_upper
  hour := 0
  minute := 0
  second := 0
  hourFits := by decide
  minuteFits := by decide
  secondFits := by decide
  fraction := []
  decimal := by simp
  zone := zone

def newYearStored : PrimitiveDateTime := ⟨(newYear (.utc 'Z' zulu_upper)).date,
  (newYear (.utc 'Z' zulu_upper)).time⟩

theorem parse_newYear (zone : Zone) :
    parseRfc3339 plainRfc3339 (newYear zone).text = some newYearStored := by
  simp only [parseRfc3339, plainRfc3339, readStamp_text, Option.map_some]
  rfl

/-- Two hours late for an admin two hours ahead of UTC. -/
theorem expiry_two_hours_late :
    parseRfc3339 plainRfc3339 "2030-01-01T00:00:00+02:00".toList = some newYearStored ∧
      (newYear (.ahead 2 0 (by decide) (by decide))).text = "2030-01-01T00:00:00+02:00".toList ∧
      (newYearStored.column.seconds : ℚ) =
        (newYear (.ahead 2 0 (by decide) (by decide))).instant + 7200 := by
  have text : (newYear (.ahead 2 0 (by decide) (by decide))).text =
      "2030-01-01T00:00:00+02:00".toList := by decide
  refine ⟨text ▸ parse_newYear _, text, ?_⟩
  rw [instant_eq plainRfc3339_documented (parse_newYear _)]
  norm_num [newYear, fraction, Zone.offset]

/-- A ban of one address until the new year. -/
def newYearBan : IpBanRequest :=
  .api ⟨"203.0.113.7".toList, "203.0.113.7".toList, none,
    some (newYear (.utc 'Z' zulu_upper)).text, none, 2⟩

def bannedClient : IpAddr := .v4 (.new 203 0 113 7)

def untilNewYear : BanTables :=
  noBans.insertBannedIp bannedClient bannedClient none (some newYearStored.column.seconds) none .full

theorem newYearBan_only : OnlyBan (requestText plainRfc3339 (fun _ => none) id) newYearBan noBans
    untilNewYear bannedClient .full := by
  have read : (requestText plainRfc3339 (fun _ => none) id).parseRfc3339
      (newYear (.utc 'Z' zulu_upper)).text = some newYearStored.column.seconds := by
    simp only [requestText, parse_newYear, Option.map_some]
  have parsed : parseIpAddr "203.0.113.7".toList = some bannedClient := by decide
  refine ⟨?_, rfl, ⟨bannedClient, bannedClient, ?_, ?_⟩, fun _ => rfl⟩
  · rw [newYearBan, IpBanRequest.accept, addBannedIp_eq_ok_iff.mpr ⟨bannedClient, bannedClient,
      .full, parsed, parsed, rfl, ?_, .inr ⟨rfl, rfl⟩, rfl⟩]
    · rw [Option.map_some, read]
      rfl
    · rw [Option.map_some, read]
      simp
  · change ((parseIpAddr "203.0.113.7".toList).bind fun start =>
      (parseIpAddr "203.0.113.7".toList).map fun stop => (start, stop)) = _
    rw [parsed]
    rfl
  · exact (matches_iff _ _ _).mpr ⟨le_rfl, le_rfl⟩

theorem expiry_denotes_iff_newYear :
    (newYearStored.column.seconds : ℚ) = (newYear (.utc 'Z' zulu_upper)).instant ∧
      (∀ now : Int, untilNewYear.isIpBanned bannedClient .full now = true ↔
        (now : ℚ) < (newYear (.utc 'Z' zulu_upper)).instant) ∧
      parseRfc3339 plainRfc3339 (formatTs plainRfc3339 newYearStored) = some newYearStored := by
  obtain ⟨reads, back⟩ := expiry_denotes_iff plainRfc3339_documented
  obtain ⟨column, -, ends⟩ := reads _ _ (parse_newYear (.utc 'Z' zulu_upper))
  have whole : WholeUtc (newYear (.utc 'Z' zulu_upper)) := by
    refine ⟨rfl, ?_⟩
    norm_num [newYear, fraction]
  exact ⟨column.mpr whole, (ends _ _ _ _ _ _ _ rfl newYearBan_only).mpr whole, back newYearStored⟩

end Filehost.Admin
