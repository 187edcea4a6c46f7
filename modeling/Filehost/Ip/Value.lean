import Filehost.Data.Numerals
import Filehost.Ip.Quota

namespace Filehost.Ip

open Filehost.Data

/-! # Addresses as numbers -/

def octetsValue (octets : List UInt8) : Nat := Numerals.value 256 UInt8.toNat octets

def IpAddr.value : IpAddr → Nat
  | .v4 address => octetsValue address.octets
  | .v6 address => octetsValue address.octets

/-- An IPv4-mapped address counts as the IPv4 address it carries. -/
def IpAddr.canonical : IpAddr → IpAddr
  | .v4 address => .v4 address
  | .v6 address =>
      match address.toIpv4Mapped with
      | some mapped => .v4 mapped
      | none => .v6 address

/-- The number of `::ffff:0.0.0.0`. -/
def mappedBase : Nat := 0xffff * 2 ^ 32

theorem octet_inj (left right : UInt8) (same : left.toNat = right.toNat) : left = right :=
  UInt8.toNat_inj.mp same

theorem octets_le_iff {left right : List UInt8} (width : left.length = right.length) :
    left ≤ right ↔ octetsValue left ≤ octetsValue right :=
  Numerals.le_iff_value_le (by decide) UInt8.toNat_lt
    (fun _ _ => UInt8.lt_iff_toNat_lt) octet_inj width

theorem toDbBytes_le_iff (left right : IpAddr) :
    toDbBytes left ≤ toDbBytes right ↔
      octetsValue (toDbBytes left) ≤ octetsValue (toDbBytes right) :=
  octets_le_iff ((toDbBytes_length left).trans (toDbBytes_length right).symm)

theorem octetsValue_inj {left right : List UInt8} (width : left.length = right.length)
    (same : octetsValue left = octetsValue right) : left = right :=
  List.le_antisymm ((octets_le_iff width).mpr same.le) ((octets_le_iff width.symm).mpr same.ge)

theorem octetsValue_append (left right : List UInt8) :
    octetsValue (left ++ right) = octetsValue right + 256 ^ right.length * octetsValue left :=
  Numerals.value_append 256 UInt8.toNat left right

theorem octetsValue_lt (octets : List UInt8) : octetsValue octets < 256 ^ octets.length :=
  Numerals.value_lt (by decide) UInt8.toNat_lt octets

theorem Ipv4Addr.value_lt (address : Ipv4Addr) : octetsValue address.octets < 2 ^ 32 := by
  have bound := octetsValue_lt address.octets
  rwa [address.size] at bound

theorem octetsValue_mappedPrefix : octetsValue mappedPrefix = 0xffff := by decide

theorem octetsValue_toIpv6Mapped (address : Ipv4Addr) :
    octetsValue address.toIpv6Mapped.octets = mappedBase + octetsValue address.octets := by
  rw [Ipv4Addr.toIpv6Mapped, octetsValue_append, address.size, octetsValue_mappedPrefix,
    mappedBase]
  omega

theorem octetsValue_split (address : Ipv6Addr) :
    octetsValue address.octets =
      octetsValue (address.octets.drop 12) + 2 ^ 32 * octetsValue (address.octets.take 12) := by
  have tail : (address.octets.drop 12).length = 4 := by simp [address.size]
  have split := octetsValue_append (address.octets.take 12) (address.octets.drop 12)
  rw [List.take_append_drop, tail] at split
  exact split

theorem octetsValue_of_mapped {address : Ipv6Addr} {mapped : Ipv4Addr}
    (found : address.toIpv4Mapped = some mapped) :
    octetsValue address.octets = mappedBase + octetsValue mapped.octets := by
  unfold Ipv6Addr.toIpv4Mapped at found
  split at found
  · rename_i leading
    cases found
    rw [octetsValue_split, leading, octetsValue_mappedPrefix, mappedBase]
    dsimp only
    omega
  · contradiction

/-- The mapped addresses are a block of numbers, and no other address is in it. -/
theorem outside_of_unmapped {address : Ipv6Addr} (unmapped : address.toIpv4Mapped = none) :
    octetsValue address.octets < mappedBase ∨ mappedBase + 2 ^ 32 ≤ octetsValue address.octets := by
  unfold Ipv6Addr.toIpv4Mapped at unmapped
  split at unmapped
  · contradiction
  · rename_i leading
    have other : octetsValue (address.octets.take 12) ≠ 0xffff := by
      intro same
      refine leading (octetsValue_inj (by simp [address.size, mappedPrefix]) ?_)
      rw [same, octetsValue_mappedPrefix]
    have low := octetsValue_lt (address.octets.drop 12)
    have tail : (address.octets.drop 12).length = 4 := by simp [address.size]
    rw [tail] at low
    rw [octetsValue_split, mappedBase]
    omega

/-- What is stored of an address depends on its canonical spelling only. -/
theorem octetsValue_toDbBytes (address : IpAddr) :
    octetsValue (toDbBytes address) =
      match address.canonical with
      | .v4 canonical => mappedBase + octetsValue canonical.octets
      | .v6 canonical => octetsValue canonical.octets := by
  cases address with
  | v4 address => exact octetsValue_toIpv6Mapped address
  | v6 address =>
      simp only [IpAddr.canonical]
      cases mapped : address.toIpv4Mapped with
      | some mapped => exact octetsValue_of_mapped ‹_›
      | none => rfl

end Filehost.Ip
