import Filehost.Http.Request

namespace Filehost.Http

open Filehost.Data.Fields Filehost.Ip

/-! # Who a request behind trusted proxies is judged by

HTTP reads a repeated field as one comma-separated list.  The trusted proxies
append to the end of that list, whichever field line they put their entries
on, while `extract_ip` looks at the first field line only. -/

def optionalSpace (byte : UInt8) : Bool := byte == 32 || byte == 9

def listEntries (value : List UInt8) : List (List UInt8) := fields 44 optionalSpace value

/-- The value HTTP gives a repeated field: its lines in order, joined by commas. -/
def combinedValue (request : HttpRequest) : List UInt8 :=
  [44].intercalate ((request.fieldLines .xForwardedFor).map HeaderValue.bytes)

/-- What the trusted proxies append, one entry each.  The first of them names
the client. -/
structure Appended (trust : XffTrust) where
  entries : List (List UInt8)
  client : IpAddr
  count : entries.length = trust.hops
  valid : ∃ first rest, entries = first :: rest ∧ parseIpAddr (first.map byteChar) = some client

structure ThroughProxies (trust : XffTrust) (appended : Appended trust)
    (request : HttpRequest) : Prop where
  trusted : ∃ peer, request.peerAddr = some peer ∧ trust.trustsPeer peer = true
  ending : appended.entries <:+ listEntries (combinedValue request)

def ReadsAs (hops : Nat) (line : HeaderValue) (address : IpAddr) : Prop :=
  line.bytes.all visibleAscii = true ∧ hops ≤ (listEntries line.bytes).length ∧
    ∃ entry, (listEntries line.bytes)[(listEntries line.bytes).length - hops]? = some entry ∧
      parseIpAddr (entry.map byteChar) = some address

/-- The first field line settles the client: it is visible ASCII and carries
every entry the proxies appended, or it happens to read as the same address
without them, or it reads as no address and the peer has the client's. -/
def FirstLineSettles {trust : XffTrust} (appended : Appended trust) (request : HttpRequest) :
    Prop :=
  ∃ line, request.get .xForwardedFor = some line ∧
    ((line.bytes.all visibleAscii = true ∧ appended.entries <:+ listEntries line.bytes) ∨
      ReadsAs trust.hops line appended.client ∨
      (request.peerAddr = some appended.client ∧ ∀ other, ¬ ReadsAs trust.hops line other))

theorem byteChar_toNat (byte : UInt8) : (byteChar byte).toNat = byte.toNat := by
  have bound := byte.toNat_lt
  have valid : byte.toNat.isValidChar := .inl (by omega)
  rw [byteChar, Char.ofNat, dif_pos valid]
  rfl

theorem byteChar_beq_comma (byte : UInt8) : (byteChar byte == ',') = (byte == 44) := by
  have code := byteChar_toNat byte
  rw [Bool.eq_iff_iff, beq_iff_eq, beq_iff_eq]
  constructor
  · intro same
    rw [same] at code
    exact UInt8.toNat_inj.mp code.symm
  · intro same
    subst same
    rfl

theorem isWhitespace_byteChar {byte : UInt8} (visible : visibleAscii byte = true) :
    isWhitespace (byteChar byte) = optionalSpace byte := by
  have code := byteChar_toNat byte
  simp only [visibleAscii, Bool.or_eq_true, beq_iff_eq, Bool.and_eq_true, decide_eq_true_eq,
    UInt8.le_iff_toNat_le, UInt8.lt_iff_toNat_lt, ← UInt8.toNat_inj, UInt8.toNat_ofNat] at visible
  rw [Bool.eq_iff_iff]
  simp only [isWhitespace, optionalSpace, code, Bool.or_eq_true, Bool.and_eq_true, beq_iff_eq,
    decide_eq_true_eq, ← UInt8.toNat_inj, UInt8.toNat_ofNat]
  omega

theorem fields_byteChar {bytes : List UInt8} (visible : bytes.all visibleAscii = true) :
    fields ',' isWhitespace (bytes.map byteChar) = (listEntries bytes).map (List.map byteChar) :=
  fields_map_of_agree (fun byte _ => byteChar_beq_comma byte) fun byte member =>
    isWhitespace_byteChar (List.all_eq_true.mp visible byte member)

theorem vouchedFor_toStr_iff (hops : Nat) (line : HeaderValue) (address : IpAddr) :
    line.toStr.bind (vouchedFor hops) = some address ↔ ReadsAs hops line address := by
  by_cases visible : line.bytes.all visibleAscii = true
  · simp only [HeaderValue.toStr, visible, ↓reduceIte, Option.bind_some, vouchedFor,
      fields_byteChar visible, List.length_map, ReadsAs, true_and]
    by_cases enough : hops ≤ (listEntries line.bytes).length
    · simp only [enough, ↓reduceIte, true_and, List.getElem?_map]
      cases (listEntries line.bytes)[(listEntries line.bytes).length - hops]? <;> simp
    · simp [enough]
  · simp [HeaderValue.toStr, visible, ReadsAs]

theorem readsAs_of_suffix {trust : XffTrust} {appended : Appended trust} {line : HeaderValue}
    (visible : line.bytes.all visibleAscii = true)
    (carried : appended.entries <:+ listEntries line.bytes) :
    ReadsAs trust.hops line appended.client := by
  obtain ⟨before, split⟩ := carried
  obtain ⟨first, rest, entries, valid⟩ := appended.valid
  have length : (listEntries line.bytes).length = before.length + trust.hops := by
    rw [← split, List.length_append, appended.count]
  refine ⟨visible, by omega, first, ?_, valid⟩
  rw [length, Nat.add_sub_cancel, ← split, entries]
  simp

theorem combinedValue_nonempty {trust : XffTrust} {appended : Appended trust}
    {request : HttpRequest} (ending : appended.entries <:+ listEntries (combinedValue request)) :
    ∃ line, request.get .xForwardedFor = some line := by
  cases found : request.get .xForwardedFor with
  | some line => exact ⟨line, rfl⟩
  | none =>
      have none : request.fieldLines .xForwardedFor = [] := by
        rw [HttpRequest.get_eq_head?] at found
        exact List.head?_eq_none_iff.mp found
      have absent : listEntries (combinedValue request) = [] := by
        simp only [combinedValue, none]
        decide
      obtain ⟨first, rest, entries, _⟩ := appended.valid
      rw [absent, entries] at ending
      exact absurd (List.suffix_nil.mp ending) (by simp)

theorem extractIp_eq_client_iff {trust : XffTrust} {appended : Appended trust}
    {request : HttpRequest} (through : ThroughProxies trust appended request) :
    extractIp request trust = some appended.client ↔ FirstLineSettles appended request := by
  obtain ⟨peer, connected, trusted⟩ := through.trusted
  obtain ⟨line, found⟩ := combinedValue_nonempty through.ending
  simp only [extractIp, connected, clientIp_of_trusted trusted, found, Option.bind_some,
    Option.some.injEq, FirstLineSettles, exists_eq_left']
  have reads := vouchedFor_toStr_iff trust.hops line
  constructor
  · intro answer
    cases vouched : line.toStr.bind (vouchedFor trust.hops) with
    | some address =>
        rw [vouched] at answer
        cases answer
        exact .inr (.inl ((reads _).mp vouched))
    | none =>
        rw [vouched] at answer
        refine .inr (.inr ⟨answer, fun other speaks => ?_⟩)
        rw [(reads other).mpr speaks] at vouched
        contradiction
  · intro settles
    rcases settles with ⟨visible, carried⟩ | speaks | ⟨rfl, silent⟩
    · rw [(reads _).mpr (readsAs_of_suffix visible carried)]
      rfl
    · rw [(reads _).mpr speaks]
      rfl
    · cases vouched : line.toStr.bind (vouchedFor trust.hops) with
      | some address => exact absurd ((reads _).mp vouched) (silent address)
      | none => rfl

/-- Both requests are judged by the client the proxies vouched for exactly
when the first field line of each of them settles that client. -/
theorem extractIp_pair_iff {trust : XffTrust} {appended : Appended trust}
    {left right : HttpRequest} (leftThrough : ThroughProxies trust appended left)
    (rightThrough : ThroughProxies trust appended right) :
    (extractIp left trust = some appended.client ∧ extractIp right trust = some appended.client) ↔
      FirstLineSettles appended left ∧ FirstLineSettles appended right :=
  and_congr (extractIp_eq_client_iff leftThrough) (extractIp_eq_client_iff rightThrough)

def loopbackTrust : XffTrust :=
  { XffTrust.untrusted with proxies := [⟨.v4 (.new 127 0 0 1), .v4 (.new 127 0 0 1)⟩] }

def vouchedLine : HeaderValue where
  bytes := "203.0.113.7".toList.map (UInt8.ofNat ·.toNat)
  accepted := @of_decide_eq_true _ (List.decidableBAll _ _) rfl

def vouchedEntry : Appended loopbackTrust where
  entries := [vouchedLine.bytes]
  client := .v4 (.new 203 0 113 7)
  count := rfl
  valid := ⟨vouchedLine.bytes, [], rfl, by decide⟩

def forwarded (before : List HeaderValue) : HttpRequest where
  headers := (before ++ [vouchedLine]).map fun line => (.xForwardedFor, line)
  peerAddr := some (.v4 (.new 127 0 0 1))

def spoofedLine : HeaderValue where
  bytes := "8.8.8.8".toList.map (UInt8.ofNat ·.toNat)
  accepted := @of_decide_eq_true _ (List.decidableBAll _ _) rfl

theorem forwarded_through : ThroughProxies loopbackTrust vouchedEntry (forwarded []) :=
  ⟨⟨_, rfl, by decide⟩, by decide⟩

theorem spoofed_through : ThroughProxies loopbackTrust vouchedEntry (forwarded [spoofedLine]) :=
  ⟨⟨_, rfl, by decide⟩, by decide⟩

theorem spoofed_line_wins :
    ThroughProxies loopbackTrust vouchedEntry (forwarded []) ∧
      ThroughProxies loopbackTrust vouchedEntry (forwarded [spoofedLine]) ∧
      ¬ (extractIp (forwarded []) loopbackTrust = some vouchedEntry.client ∧
        extractIp (forwarded [spoofedLine]) loopbackTrust = some vouchedEntry.client) :=
  ⟨forwarded_through, spoofed_through, by decide⟩

theorem extractIp_pair_iff_spoofed :
    (extractIp (forwarded []) loopbackTrust = some vouchedEntry.client ∧
        extractIp (forwarded [spoofedLine]) loopbackTrust = some vouchedEntry.client) ↔
      FirstLineSettles vouchedEntry (forwarded []) ∧
        FirstLineSettles vouchedEntry (forwarded [spoofedLine]) :=
  extractIp_pair_iff forwarded_through spoofed_through

end Filehost.Http
