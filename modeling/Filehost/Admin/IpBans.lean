import Filehost.Admin.Cli
import Filehost.Ip.Value

namespace Filehost.Admin

open Filehost.Database Filehost.Ip

/-! # What an accepted IP ban bans

Both ways to add one check that the endpoints share a family, and compare
addresses bytewise in the form they are stored in. -/

inductive IpBanRequest where
  | api (body : BannedIpRangeCreate)
  | cli (arguments : BanIpAdd)

/-- The tables after a request that is accepted. -/
def IpBanRequest.accept (text : RequestText) (tables : BanTables) : IpBanRequest → Option BanTables
  | .api body => (addBannedIp text body tables).toOption
  | .cli arguments => (banIpAdd text arguments tables).toOption

def IpBanRequest.endpoints : IpBanRequest → Option (IpAddr × IpAddr)
  | .api body => (parseIpAddr body.startIp).bind fun start =>
      (parseIpAddr body.endIp).map fun stop => (start, stop)
  | .cli arguments => some (arguments.start, arguments.stop)

def IpBanRequest.expiry : IpBanRequest → Option (List Char)
  | .api body => body.expiresTimestamp
  | .cli arguments => arguments.expires

def IpBanRequest.banType : IpBanRequest → Option BanType
  | .api body =>
      match body.type with
      | 0 | 1 => some .readOnly
      | 2 => some .full
      | _ => none
  | .cli arguments => (parseBanType arguments.type).toOption

/-- The address lies between the endpoints, whichever of them is the greater. -/
def Covers (a b client : IpAddr) : Prop :=
  sameFamily a client.canonical = true ∧
    (a.value ≤ client.canonical.value ∧ client.canonical.value ≤ b.value ∨
      b.value ≤ client.canonical.value ∧ client.canonical.value ≤ a.value)

/-- A client that no other row matches is banned when the range covers it. -/
def BansExactly (text : RequestText) (request : IpBanRequest) (a b : IpAddr) (banType : BanType) :
    Prop :=
  ∀ tables after client now, request.accept text tables = some after →
    tables.isIpBanned client banType now = false →
      (after.isIpBanned client banType now = true ↔ Covers a b client)

/-- The IPv6 range lies around the block of the mapped addresses. -/
def SurroundsMapped : IpAddr → IpAddr → Prop
  | .v6 a, .v6 b => octetsValue a.octets < mappedBase ∧ mappedBase < octetsValue b.octets
  | _, _ => False

variable {text : RequestText} {request : IpBanRequest} {tables after : BanTables} {a b : IpAddr}
  {banType : BanType}

/-- Whether a request is accepted does not depend on the tables. -/
structure Inserts (text : RequestText) (request : IpBanRequest) (start stop : IpAddr)
    (banType : BanType) : Prop where
  endpoints : request.endpoints = some (start, stop)
  typed : request.banType = some banType
  related : sameFamily start stop = true
  inserted : ∃ reason blacklistId, ∀ tables : BanTables, request.accept text tables =
    some (tables.insertBannedIp start stop reason none blacklistId banType)

theorem banType_api {body : BannedIpRangeCreate}
    (typed : (body.type = 0 ∨ body.type = 1) ∧ banType = .readOnly ∨
      body.type = 2 ∧ banType = .full) :
    (IpBanRequest.api body).banType = some banType := by
  rcases typed with ⟨zero | one, rfl⟩ | ⟨two, rfl⟩
  · simp [IpBanRequest.banType, zero]
  · simp [IpBanRequest.banType, one]
  · simp [IpBanRequest.banType, two]

theorem addBannedIp_inserts {body : BannedIpRangeCreate} (forever : body.expiresTimestamp = none)
    (added : addBannedIp text body tables = .ok after) :
    ∃ start stop banType, Inserts text (.api body) start stop banType := by
  obtain ⟨start, stop, banType, startParsed, stopParsed, related, expiry, typed, -⟩ :=
    addBannedIp_eq_ok_iff.mp added
  have endpoints : (IpBanRequest.api body).endpoints = some (start, stop) := by
    simp [IpBanRequest.endpoints, startParsed, stopParsed]
  refine ⟨start, stop, banType, endpoints, banType_api typed, related, body.reason,
    body.blacklistId, fun tables => ?_⟩
  rw [IpBanRequest.accept, addBannedIp_eq_ok_iff.mpr
    ⟨start, stop, banType, startParsed, stopParsed, related, expiry, typed, rfl⟩, forever]
  rfl

theorem banIpAdd_inserts {arguments : BanIpAdd} (forever : arguments.expires = none)
    (added : banIpAdd text arguments tables = .ok after) :
    ∃ start stop banType, Inserts text (.cli arguments) start stop banType := by
  obtain ⟨related, banType, parsed, -⟩ := banIpAdd_eq_ok added
  refine ⟨arguments.start, arguments.stop, banType, rfl, ?_, related, arguments.reason, none,
    fun tables => ?_⟩
  · simp [IpBanRequest.banType, parsed, Except.toOption]
  · simp [IpBanRequest.accept, banIpAdd, related, parsed, forever, Except.toOption]

/-- Without an expiry an accepted request inserts its range for good. -/
theorem accept_inserts (forever : request.expiry = none)
    (accepted : request.accept text tables = some after) :
    ∃ start stop banType, Inserts text request start stop banType := by
  cases request with
  | api body =>
      cases added : addBannedIp text body tables with
      | error error => simp [IpBanRequest.accept, added, Except.toOption] at accepted
      | ok result => exact addBannedIp_inserts forever added
  | cli arguments =>
      cases added : banIpAdd text arguments tables with
      | error error => simp [IpBanRequest.accept, added, Except.toOption] at accepted
      | ok result => exact banIpAdd_inserts forever added

theorem isIpBanned_insertBannedIp (tables : BanTables) (a b client : IpAddr)
    (reason : Option (List Char)) (blacklistId : Option Int) (banType : BanType) (now : Int) :
    (tables.insertBannedIp a b reason none blacklistId banType).isIpBanned client banType now =
      (tables.isIpBanned client banType now ||
        (decide (toDbBytes a ≤ toDbBytes client) && decide (toDbBytes client ≤ toDbBytes b))) := by
  simp [BanTables.isIpBanned, BanTables.insertBannedIp]

theorem canonical_eq_v6 {client : IpAddr} {address : Ipv6Addr}
    (canonical : client.canonical = .v6 address) :
    address.toIpv4Mapped = none := by
  cases client with
  | v4 client => cases canonical
  | v6 client =>
      simp only [IpAddr.canonical] at canonical
      split at canonical
      · cases canonical
      · rename_i unmapped
        cases canonical
        exact unmapped

theorem canonical_self {address : Ipv6Addr} (canonical : (IpAddr.v6 address).canonical = .v6 address) :
    octetsValue address.octets < mappedBase ∨ mappedBase + 2 ^ 32 ≤ octetsValue address.octets :=
  outside_of_unmapped (canonical_eq_v6 canonical)

/-- The stored form of the client lies in the stored range. -/
def Matches (a b client : IpAddr) : Prop :=
  toDbBytes a ≤ toDbBytes client ∧ toDbBytes client ≤ toDbBytes b

theorem matches_iff (a b client : IpAddr) :
    Matches a b client ↔
      octetsValue (toDbBytes a) ≤ octetsValue (toDbBytes client) ∧
        octetsValue (toDbBytes client) ≤ octetsValue (toDbBytes b) := by
  rw [Matches, toDbBytes_le_iff, toDbBytes_le_iff]

theorem matches_v4_iff (a b : Ipv4Addr) (client : IpAddr)
    (ordered : octetsValue a.octets ≤ octetsValue b.octets) :
    Matches (.v4 a) (.v4 b) client ↔ Covers (.v4 a) (.v4 b) client := by
  rw [matches_iff, octetsValue_toDbBytes, octetsValue_toDbBytes, octetsValue_toDbBytes, Covers]
  have bound := b.value_lt
  cases canonical : client.canonical with
  | v4 client =>
      simp only [IpAddr.canonical, IpAddr.value, sameFamily, true_and]
      omega
  | v6 client =>
      have outside := outside_of_unmapped (canonical_eq_v6 canonical)
      simp only [IpAddr.canonical, sameFamily, Bool.false_eq_true, false_and, iff_false]
      omega

theorem matches_v6_iff (a b : Ipv6Addr) (client : IpAddr) (left : (IpAddr.v6 a).canonical = .v6 a)
    (right : (IpAddr.v6 b).canonical = .v6 b)
    (ordered : octetsValue a.octets ≤ octetsValue b.octets)
    (apart : ¬SurroundsMapped (.v6 a) (.v6 b)) :
    Matches (.v6 a) (.v6 b) client ↔ Covers (.v6 a) (.v6 b) client := by
  rw [matches_iff, octetsValue_toDbBytes client, Covers]
  have leftOutside := canonical_self left
  have rightOutside := canonical_self right
  cases canonical : client.canonical with
  | v4 client =>
      have bound := client.value_lt
      simp only [toDbBytes, sameFamily, Bool.false_eq_true, false_and, iff_false]
      simp only [SurroundsMapped] at apart
      omega
  | v6 client =>
      simp only [toDbBytes, IpAddr.value, sameFamily, true_and]
      omega

theorem bansExactly_iff (inserts : Inserts text request a b banType) :
    BansExactly text request a b banType ↔ ∀ client, Matches a b client ↔ Covers a b client := by
  obtain ⟨-, -, -, reason, blacklistId, inserted⟩ := inserts
  have banned : ∀ (tables : BanTables) (client : IpAddr) (now : Int),
      tables.isIpBanned client banType now = false →
        ((tables.insertBannedIp a b reason none blacklistId banType).isIpBanned client banType now =
          true ↔ Matches a b client) := by
    intro tables client now unmatched
    simp [isIpBanned_insertBannedIp, unmatched, Matches]
  constructor
  · intro exactly client
    have quiet : (⟨[], 1, [], [], [], []⟩ : BanTables).isIpBanned client banType 0 = false := rfl
    rw [← banned _ client 0 quiet]
    exact exactly _ _ client 0 (inserted _) quiet
  · intro covers tables after client now accepted unmatched
    obtain rfl := Option.some.inj ((inserted tables).symm.trans accepted)
    exact (banned tables client now unmatched).trans (covers client)

theorem covers_left (related : sameFamily a b = true) (canonical : a.canonical = a) :
    Covers a b a := by
  have same : sameFamily a a = true := by cases a <;> rfl
  rw [Covers, canonical]
  exact ⟨same, by omega⟩

theorem matches_left (exactly : ∀ client, Matches a b client ↔ Covers a b client)
    (related : sameFamily a b = true) (canonical : a.canonical = a) :
    octetsValue (toDbBytes a) ≤ octetsValue (toDbBytes b) :=
  ((matches_iff a b a).mp ((exactly a).mpr (covers_left related canonical))).2

theorem matches_covers_v4_iff (a b : Ipv4Addr) :
    (∀ client, Matches (.v4 a) (.v4 b) client ↔ Covers (.v4 a) (.v4 b) client) ↔
      octetsValue a.octets ≤ octetsValue b.octets := by
  constructor
  · intro exactly
    have ordered := matches_left exactly rfl rfl
    rw [octetsValue_toDbBytes, octetsValue_toDbBytes] at ordered
    exact Nat.le_of_add_le_add_left ordered
  · exact fun ordered client => matches_v4_iff a b client ordered

theorem matches_covers_v6_iff (a b : Ipv6Addr) (left : (IpAddr.v6 a).canonical = .v6 a)
    (right : (IpAddr.v6 b).canonical = .v6 b) :
    (∀ client, Matches (.v6 a) (.v6 b) client ↔ Covers (.v6 a) (.v6 b) client) ↔
      octetsValue a.octets ≤ octetsValue b.octets ∧ ¬SurroundsMapped (.v6 a) (.v6 b) := by
  constructor
  · intro exactly
    refine ⟨matches_left exactly rfl left, fun surrounds => ?_⟩
    have zero : octetsValue (toDbBytes (.v4 (.new 0 0 0 0))) = mappedBase := by decide
    have matched : Matches (.v6 a) (.v6 b) (.v4 (.new 0 0 0 0)) := by
      rw [matches_iff, zero]
      exact ⟨surrounds.1.le, surrounds.2.le⟩
    have covered := (exactly _).mp matched
    exact absurd covered.1 Bool.false_ne_true
  · intro holds client
    exact matches_v6_iff a b client left right holds.1 holds.2

/-- An accepted ban bans exactly its range when its endpoints are in order and,
as IPv6 addresses, do not lie on both sides of the mapped block. -/
theorem accepted_ban_exact_iff (accepted : request.accept text tables = some after)
    (forever : request.expiry = none) (endpoints : request.endpoints = some (a, b))
    (typed : request.banType = some banType) (left : a.canonical = a) (right : b.canonical = b) :
    BansExactly text request a b banType ↔ a.value ≤ b.value ∧ ¬SurroundsMapped a b := by
  obtain ⟨start, stop, kind, inserts⟩ := accept_inserts forever accepted
  cases inserts.endpoints.symm.trans endpoints
  cases inserts.typed.symm.trans typed
  rw [bansExactly_iff inserts]
  cases a with
  | v4 a =>
      cases b with
      | v4 b =>
          rw [matches_covers_v4_iff]
          simp [IpAddr.value, SurroundsMapped]
      | v6 b => exact absurd inserts.related Bool.false_ne_true
  | v6 a =>
      cases b with
      | v4 b => exact absurd inserts.related Bool.false_ne_true
      | v6 b => exact matches_covers_v6_iff a b left right

theorem loopback_size : (List.replicate 15 (0 : UInt8) ++ [1]).length = 16 := rfl

def loopback : IpAddr := .v6 ⟨List.replicate 15 0 ++ [1], loopback_size⟩

def globalUnicast : IpAddr := .v6 ⟨0x20 :: List.replicate 15 0, rfl⟩

/-- A request to ban from `::1` up to `2000::`. -/
def wideBan : IpBanRequest := .api ⟨"::1".toList, "2000::".toList, none, none, none, 1⟩

def noBans : BanTables := ⟨[], 1, [], [], [], []⟩

theorem wideBan_accepted : wideBan.accept silentText noBans =
    some (noBans.insertBannedIp loopback globalUnicast none none none .readOnly) := by
  rfl

theorem wideBan_endpoints : wideBan.endpoints = some (loopback, globalUnicast) := by decide

/-- The range takes all of IPv4 with it. -/
theorem wide_ban_bans_ipv4 :
    wideBan.accept silentText noBans =
        some (noBans.insertBannedIp loopback globalUnicast none none none .readOnly) ∧
      wideBan.endpoints = some (loopback, globalUnicast) ∧ wideBan.expiry = none ∧
      loopback.canonical = loopback ∧ globalUnicast.canonical = globalUnicast ∧
      ¬BansExactly silentText wideBan loopback globalUnicast .readOnly := by
  refine ⟨wideBan_accepted, wideBan_endpoints, rfl, rfl, rfl, fun exactly => ?_⟩
  have covered := (exactly noBans _ (.v4 (.new 203 0 113 7)) 0 wideBan_accepted rfl).mp rfl
  exact absurd covered.1 Bool.false_ne_true

theorem accepted_ban_exact_iff_wide :
    BansExactly silentText wideBan loopback globalUnicast .readOnly ↔
      loopback.value ≤ globalUnicast.value ∧ ¬SurroundsMapped loopback globalUnicast :=
  accepted_ban_exact_iff wideBan_accepted rfl wideBan_endpoints rfl rfl rfl

end Filehost.Admin
