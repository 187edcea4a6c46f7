import Filehost.Ip.Cidr

namespace Filehost.Ip

open Filehost.Data Filehost.Data.Fields

/-! # The configured proxies

The policy is read once, from a list of blocks.  Entries that are none are reported
and trust nobody. -/

/-- What one entry adds to the blocks, or to the entries reported. -/
def sortEntry (found : List Cidr × List (List Char)) (entry : List Char) :
    List Cidr × List (List Char) :=
  if trim isWhitespace entry = [] then found
  else
    match Cidr.parse entry with
    | some block => (found.1 ++ [block], found.2)
    | none => (found.1, found.2 ++ [trim isWhitespace entry])

def XffTrust.new (proxies : Option (List Char)) (hops : Nat) : XffTrust × List (List Char) :=
  let (parsed, invalid) := ((proxies.getD []).splitOn ',').foldl sortEntry ([], [])
  (⟨parsed, max hops 1, Nat.le_max_right hops 1⟩, invalid)

def XffTrust.proxyCount (trust : XffTrust) : Nat := trust.proxies.length

/-- The entries of a configured list, without the blanks around them. -/
def listed (proxies : Option (List Char)) : List (List Char) :=
  fields ',' isWhitespace (proxies.getD [])

/-- What an entry stands for: an address, alone or with a length of its prefix. -/
def Denotes (entry : List Char) (address : IpAddr) (prefixLength : Nat) : Prop :=
  match splitOnce '/' entry with
  | none => parseIpAddr entry = some address ∧ prefixLength = address.width
  | some (before, after) =>
      parseIpAddr (trim isWhitespace before) = some address ∧
        u8FromStr (trim isWhitespace after) = some prefixLength

/-- Two addresses whose stored forms agree but for the bits a prefix leaves open. -/
def SharesPrefix (address : IpAddr) (prefixLength : Nat) (other : IpAddr) : Prop :=
  octetsValue (toDbBytes other) / 2 ^ (address.width - prefixLength) =
    octetsValue (toDbBytes address) / 2 ^ (address.width - prefixLength)

/-- An entry lists a peer. -/
def Lists (entry : List Char) (peer : IpAddr) : Prop :=
  ∃ address prefixLength, Denotes entry address prefixLength ∧ prefixLength ≤ address.width ∧
    SharesPrefix address prefixLength peer

variable {entry : List Char} {address peer : IpAddr} {prefixLength : Nat}

/-! ## The list -/

theorem Cidr.parse_trim (entry : List Char) :
    Cidr.parse (trim isWhitespace entry) = Cidr.parse entry := by
  unfold Cidr.parse
  rw [trim_trim]
  cases splitOnce '/' (trim isWhitespace entry) with
  | none => simp only [trim_trim]
  | some cut => rfl

theorem foldl_sortEntry (found : List Cidr × List (List Char)) (pieces : List (List Char)) :
    pieces.foldl sortEntry found =
      let entries := (pieces.map (trim isWhitespace)).filter fun entry => !entry.isEmpty
      (found.1 ++ entries.filterMap Cidr.parse,
        found.2 ++ entries.filter fun entry => (Cidr.parse entry).isNone) := by
  induction pieces generalizing found with
  | nil => simp
  | cons piece rest ih =>
      rw [List.foldl_cons, ih, sortEntry]
      by_cases blank : trim isWhitespace piece = []
      · simp [blank]
      · have read := Cidr.parse_trim piece
        cases parsed : Cidr.parse piece <;> rw [parsed] at read <;> simp [blank, read]

/-- Every entry is counted as a block or reported, in the order of the list. -/
theorem XffTrust.new_eq (proxies : Option (List Char)) (hops : Nat) :
    (XffTrust.new proxies hops).1.proxies = (listed proxies).filterMap Cidr.parse ∧
      (XffTrust.new proxies hops).1.hops = max hops 1 ∧
      (XffTrust.new proxies hops).2 =
        (listed proxies).filter fun entry => (Cidr.parse entry).isNone := by
  have sorted := foldl_sortEntry ([], []) ((proxies.getD []).splitOn ',')
  refine ⟨?_, rfl, ?_⟩
  · exact congrArg Prod.fst sorted
  · exact congrArg Prod.snd sorted

theorem length_filterMap_add_filter {α β : Type} (f : α → Option β) (list : List α) :
    (list.filterMap f).length + (list.filter fun x => (f x).isNone).length = list.length := by
  induction list with
  | nil => rfl
  | cons head rest ih =>
      cases found : f head with
      | none => simp [found, ← ih, Nat.add_assoc]
      | some value => simp [found, ← ih, Nat.add_right_comm]

/-! ## What an entry lists -/

theorem Cidr.parse_of_denotes (solid : trim isWhitespace entry = entry)
    (denotes : Denotes entry address prefixLength) :
    Cidr.parse entry = Cidr.around address (some prefixLength) := by
  unfold Denotes at denotes
  unfold Cidr.parse
  rw [solid]
  cases cut : splitOnce '/' entry with
  | none =>
      rw [cut] at denotes
      obtain ⟨reads, rfl⟩ := denotes
      simp [solid, reads, Cidr.around_none]
  | some pieces =>
      rw [cut] at denotes
      simp [denotes.1, denotes.2]

/-- Only what an entry stands for makes it a block. -/
theorem Cidr.denotes_of_parse {block : Cidr} (solid : trim isWhitespace entry = entry)
    (parsed : Cidr.parse entry = some block) :
    ∃ address prefixLength, Denotes entry address prefixLength ∧ prefixLength ≤ address.width ∧
      Cidr.around address (some prefixLength) = some block := by
  have narrow : ∀ address prefixLength, Denotes entry address prefixLength →
      ∃ address prefixLength, Denotes entry address prefixLength ∧ prefixLength ≤ address.width ∧
        Cidr.around address (some prefixLength) = some block := by
    intro address prefixLength denotes
    have around := (Cidr.parse_of_denotes solid denotes).symm.trans parsed
    refine ⟨address, prefixLength, denotes, ?_, around⟩
    by_contra wide
    rw [Cidr.around_of_wide (by omega)] at around
    cases around
  unfold Cidr.parse at parsed
  rw [solid] at parsed
  cases cut : splitOnce '/' entry with
  | none =>
      simp only [cut, solid] at parsed
      obtain ⟨address, reads, -⟩ := Option.bind_eq_some_iff.mp parsed
      exact narrow address address.width (by simp [Denotes, cut, reads])
  | some pieces =>
      simp only [cut] at parsed
      obtain ⟨address, reads, rest⟩ := Option.bind_eq_some_iff.mp parsed
      obtain ⟨_, digits, -⟩ := Option.bind_eq_some_iff.mp rest
      obtain ⟨prefixLength, number, -⟩ := Option.map_eq_some_iff.mp digits
      exact narrow address prefixLength (by simp [Denotes, cut, reads, number])

theorem mappedBase_first {bits value : Nat} (short : bits ≤ 32) :
    mappedBase + Blocks.first bits value = Blocks.first bits (mappedBase + value) := by
  obtain ⟨more, split⟩ := Nat.exists_eq_add_of_le short
  have aligned : mappedBase = 0xffff * 2 ^ more * 2 ^ bits := by
    rw [mappedBase, split, Nat.pow_add]
    ring
  rw [Blocks.first, Blocks.first, aligned, Nat.add_comm (_ * 2 ^ bits) value,
    Nat.add_mul_div_right _ _ (Nat.two_pow_pos bits), Nat.add_mul, Nat.add_comm]

theorem Cidr.around_exists (fits : prefixLength ≤ address.width) :
    ∃ block, Cidr.around address (some prefixLength) = some block := by
  cases address with
  | v4 address =>
      obtain ⟨start, stop, made, -⟩ := Cidr.around_v4 address fits
      exact ⟨_, made⟩
  | v6 address =>
      obtain ⟨start, stop, made, -⟩ := Cidr.around_v6 address fits
      exact ⟨_, made⟩

/-- In their stored form the blocks of both families are what their prefix tells. -/
theorem Cidr.contains_around {block : Cidr} (fits : prefixLength ≤ address.width)
    (around : Cidr.around address (some prefixLength) = some block) :
    block.contains peer = true ↔ SharesPrefix address prefixLength peer := by
  rw [Cidr.contains_iff, SharesPrefix, ← Blocks.mem_iff]
  cases address with
  | v4 address =>
      obtain ⟨start, stop, made, first, last⟩ := Cidr.around_v4 address fits
      obtain rfl : block = ⟨.v4 start, .v4 stop⟩ := Option.some.inj (around.symm.trans made)
      have aligned : mappedBase + Blocks.first (32 - prefixLength) (octetsValue address.octets) = _ :=
        mappedBase_first (Nat.sub_le 32 prefixLength)
      simp only [toDbBytes, octetsValue_toIpv6Mapped, first, last, IpAddr.width, Blocks.last] at aligned ⊢
      omega
  | v6 address =>
      obtain ⟨start, stop, made, first, last⟩ := Cidr.around_v6 address fits
      obtain rfl : block = ⟨.v6 start, .v6 stop⟩ := Option.some.inj (around.symm.trans made)
      simp only [toDbBytes, first, last, IpAddr.width]

theorem trim_of_listed {proxies : Option (List Char)} (member : entry ∈ listed proxies) :
    trim isWhitespace entry = entry := by
  obtain ⟨piece, -, rfl⟩ := List.mem_map.mp (List.mem_filter.mp member).1
  exact trim_trim _ _

theorem XffTrust.trustsPeer_new (proxies : Option (List Char)) (hops : Nat) (peer : IpAddr) :
    (XffTrust.new proxies hops).1.trustsPeer peer = true ↔
      ∃ entry ∈ listed proxies, Lists entry peer := by
  rw [XffTrust.trustsPeer, (XffTrust.new_eq proxies hops).1, List.any_eq_true]
  constructor
  · rintro ⟨block, member, contains⟩
    obtain ⟨entry, inside, parsed⟩ := List.mem_filterMap.mp member
    obtain ⟨address, prefixLength, denotes, fits, around⟩ :=
      Cidr.denotes_of_parse (trim_of_listed inside) parsed
    exact ⟨entry, inside, address, prefixLength, denotes, fits,
      (Cidr.contains_around fits around).mp contains⟩
  · rintro ⟨entry, inside, address, prefixLength, denotes, fits, shares⟩
    have read := Cidr.parse_of_denotes (trim_of_listed inside) denotes
    obtain ⟨block, around⟩ := Cidr.around_exists fits
    exact ⟨block, List.mem_filterMap.mpr ⟨entry, inside, read.trans around⟩,
      (Cidr.contains_around fits around).mpr shares⟩

/-- From the configured list to the client.  An entry lists whom its prefix tells, or is
reported; a listed peer speaks for the client `hops` places from the right, and the header
of another peer counts for nothing. -/
theorem clientIp_of_configured (proxies : Option (List Char)) (hops : Nat) :
    (XffTrust.new proxies hops).1.proxyCount + (XffTrust.new proxies hops).2.length =
        (listed proxies).length ∧
      (∀ entry, entry ∈ (XffTrust.new proxies hops).2 ↔ entry ∈ listed proxies ∧
        ∀ address prefixLength, Denotes entry address prefixLength → address.width < prefixLength) ∧
      ∀ xff peer,
        ((∃ entry ∈ listed proxies, Lists entry peer) →
          clientIp xff (some peer) (XffTrust.new proxies hops).1 =
            some ((xff.bind (vouchedFor (max hops 1))).getD peer)) ∧
        ((¬∃ entry ∈ listed proxies, Lists entry peer) →
          clientIp xff (some peer) (XffTrust.new proxies hops).1 = some peer) := by
  obtain ⟨blocks, counted, invalid⟩ := XffTrust.new_eq proxies hops
  refine ⟨?_, ?_, ?_⟩
  · rw [XffTrust.proxyCount, blocks, invalid]
    exact length_filterMap_add_filter _ _
  · intro entry
    rw [invalid, List.mem_filter, Option.isNone_iff_eq_none]
    refine and_congr_right fun inside => ?_
    have solid := trim_of_listed inside
    constructor
    · intro refused address prefixLength denotes
      by_contra fits
      obtain ⟨block, around⟩ := Cidr.around_exists (Nat.le_of_not_lt fits)
      rw [Cidr.parse_of_denotes solid denotes, around] at refused
      cases refused
    · intro wide
      by_contra read
      obtain ⟨block, parsed⟩ := Option.ne_none_iff_exists'.mp read
      obtain ⟨address, prefixLength, denotes, fits, -⟩ := Cidr.denotes_of_parse solid parsed
      have outside := wide address prefixLength denotes
      omega
  · intro xff peer
    have trusts := XffTrust.trustsPeer_new proxies hops peer
    constructor
    · intro lists
      rw [clientIp_of_trusted (trusts.mpr lists), counted]
    · intro unlisted
      exact clientIp_of_untrusted (Bool.eq_false_iff.mpr fun trusted => unlisted (trusts.mp trusted)) xff

end Filehost.Ip
