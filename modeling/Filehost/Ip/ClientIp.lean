import Filehost.Data.Fields
import Filehost.Ip.Text

namespace Filehost.Ip

open Filehost.Data.Fields

structure Cidr where
  start : IpAddr
  stop : IpAddr

/-- Compared in the stored form, bytewise. -/
def Cidr.contains (block : Cidr) (address : IpAddr) : Bool :=
  decide (toDbBytes block.start ≤ toDbBytes address ∧ toDbBytes address ≤ toDbBytes block.stop)

/-- `hops` counts the trusted proxies between server and client, the socket
peer included; every constructor of the policy makes it positive. -/
structure XffTrust where
  proxies : List Cidr
  hops : Nat
  reachesClient : 1 ≤ hops

def XffTrust.untrusted : XffTrust := ⟨[], 1, Nat.le_refl 1⟩

def XffTrust.trustsPeer (trust : XffTrust) (peer : IpAddr) : Bool :=
  trust.proxies.any fun block => block.contains peer

def isWhitespace (char : Char) : Bool :=
  let code := char.toNat
  (9 ≤ code && code ≤ 13) || code == 0x20 || code == 0x85 || code == 0xa0 || code == 0x1680 ||
    (0x2000 ≤ code && code ≤ 0x200a) || code == 0x2028 || code == 0x2029 || code == 0x202f ||
    code == 0x205f || code == 0x3000

/-- The address the header speaks for: the entry `hops` places from the right,
when there are that many entries and it reads as an address. -/
def vouchedFor (hops : Nat) (header : List Char) : Option IpAddr :=
  let entries := fields ',' isWhitespace header
  if hops ≤ entries.length then entries[entries.length - hops]?.bind parseIpAddr else none

def clientIp (xff : Option (List Char)) (peer : Option IpAddr) (trust : XffTrust) :
    Option IpAddr :=
  match xff, peer with
  | some header, some peerAddr =>
      if trust.trustsPeer peerAddr then
        match vouchedFor trust.hops header with
        | some address => some address
        -- too few entries, or one that does not parse: the header vouches for nothing
        | none => peer
      else peer
  | _, _ => peer

theorem clientIp_of_trusted {trust : XffTrust} {peer : IpAddr}
    (trusted : trust.trustsPeer peer = true) (xff : Option (List Char)) :
    clientIp xff (some peer) trust = some (((xff.bind (vouchedFor trust.hops))).getD peer) := by
  cases xff with
  | none => rfl
  | some header =>
      simp only [clientIp, trusted, ↓reduceIte, Option.bind_some]
      cases vouchedFor trust.hops header <;> rfl

/-- A header as a chain of proxies leaves it: what it found, then an entry each. -/
def chained (found : List Char) (entries : List (List Char)) : List Char :=
  found ++ entries.flatMap (',' :: ·)

/-- An entry the header is cut into: no comma in it, and more than blanks. -/
def Solid (entry : List Char) : Prop := ',' ∉ entry ∧ trim isWhitespace entry ≠ []

instance (entry : List Char) : Decidable (Solid entry) :=
  inferInstanceAs (Decidable (_ ∧ _))

theorem fields_chained (found : List Char) {entries : List (List Char)}
    (solid : ∀ entry ∈ entries, Solid entry) :
    fields ',' isWhitespace (chained found entries) =
      fields ',' isWhitespace found ++ entries.map (trim isWhitespace) :=
  fields_append_pieces solid

theorem vouchedFor_chained (found : List Char) {first : List Char} {rest : List (List Char)}
    (solid : ∀ entry ∈ first :: rest, Solid entry) :
    vouchedFor (first :: rest).length (chained found (first :: rest)) =
      parseIpAddr (trim isWhitespace first) := by
  have length : (fields ',' isWhitespace (chained found (first :: rest))).length =
      (fields ',' isWhitespace found).length + (first :: rest).length := by
    rw [fields_chained found solid, List.length_append, List.length_map]
  have enough : (first :: rest).length ≤
      (fields ',' isWhitespace (chained found (first :: rest))).length := by omega
  have index : (fields ',' isWhitespace (chained found (first :: rest))).length -
      (first :: rest).length = (fields ',' isWhitespace found).length := by omega
  simp only [vouchedFor, enough, ↓reduceIte, index]
  rw [fields_chained found solid]
  simp

theorem vouchedFor_of_short {hops : Nat} {header : List Char}
    (short : (fields ',' isWhitespace header).length < hops) : vouchedFor hops header = none := by
  simp only [vouchedFor, not_le.mpr short, ↓reduceIte]

theorem clientIp_of_unvouched (trust : XffTrust) {xff : Option (List Char)}
    (unvouched : ∀ header ∈ xff, vouchedFor trust.hops header = none) (peer : Option IpAddr) :
    clientIp xff peer trust = peer := by
  cases xff with
  | none => rfl
  | some header =>
      cases peer with
      | none => rfl
      | some peer =>
          simp only [clientIp, unvouched header rfl]
          split <;> rfl

theorem clientIp_of_untrusted {trust : XffTrust} {peer : IpAddr}
    (untrusted : trust.trustsPeer peer = false) (xff : Option (List Char)) :
    clientIp xff (some peer) trust = some peer := by
  cases xff with
  | none => rfl
  | some header => simp [clientIp, untrusted]

theorem clientIp_eq_none_iff (trust : XffTrust) (xff : Option (List Char)) (peer : Option IpAddr) :
    clientIp xff peer trust = none ↔ peer = none := by
  cases peer with
  | none => cases xff <;> simp [clientIp]
  | some peer =>
      cases trusted : trust.trustsPeer peer with
      | true => simp [clientIp_of_trusted trusted]
      | false => simp [clientIp_of_untrusted trusted]

/-- The client is read from the right, whatever stands to the left.  Where the
header does not reach that far, or may not speak, the client is the peer. -/
theorem clientIp_reads_from_right (trust : XffTrust) :
    (∀ found first rest peer, (first :: rest).length = trust.hops →
      (∀ entry ∈ first :: rest, Solid entry) → trust.trustsPeer peer = true →
        clientIp (some (chained found (first :: rest))) (some peer) trust =
          some ((parseIpAddr (trim isWhitespace first)).getD peer)) ∧
    (∀ header peer, (fields ',' isWhitespace header).length < trust.hops →
      clientIp (some header) peer trust = peer) ∧
    (∀ xff peer, trust.trustsPeer peer = false → clientIp xff (some peer) trust = some peer) ∧
    (∀ peer, clientIp none peer trust = peer) ∧
    (∀ xff peer, clientIp xff peer trust = none ↔ peer = none) ∧
    ∀ header, trust.hops ≤ (fields ',' isWhitespace header).length →
      (fields ',' isWhitespace header).length - trust.hops <
        (fields ',' isWhitespace header).length := by
  refine ⟨?_, ?_, fun xff peer untrusted => clientIp_of_untrusted untrusted xff, ?_,
    clientIp_eq_none_iff trust, ?_⟩
  · intro found first rest peer count solid trusted
    rw [clientIp_of_trusted trusted, Option.bind_some, ← count, vouchedFor_chained found solid]
  · intro header peer short
    apply clientIp_of_unvouched
    intro other same
    cases same
    exact vouchedFor_of_short short
  · exact clientIp_of_unvouched trust nofun
  · intro header enough
    have reaches := trust.reachesClient
    omega

def twoHops : XffTrust := ⟨[⟨.v4 (.new 10 0 0 0), .v4 (.new 10 255 255 255)⟩], 2, by decide⟩

/-- Both halves of what a client may put in front of the entries of two proxies. -/
theorem clientIp_reads_from_right_two :
    clientIp (some (chained "8.8.8.8,, 1.1.1.1".toList [" 203.0.113.7".toList, "10.0.0.2".toList]))
        (some (.v4 (.new 10 0 0 1))) twoHops = some (.v4 (.new 203 0 113 7)) ∧
      clientIp (some " 8.8.8.8 , ".toList) (some (.v4 (.new 10 0 0 1))) twoHops =
        some (.v4 (.new 10 0 0 1)) ∧
      clientIp (some "8.8.8.8,8.8.4.4".toList) (some (.v4 (.new 192 0 2 1))) twoHops =
        some (.v4 (.new 192 0 2 1)) := by
  obtain ⟨chain, short, untrusted, -⟩ := clientIp_reads_from_right twoHops
  refine ⟨?_, short _ _ (by decide), untrusted _ _ (by decide)⟩
  rw [chain _ _ _ _ rfl (by decide) (by decide)]
  decide

end Filehost.Ip
