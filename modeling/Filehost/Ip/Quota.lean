import Filehost.Ip.Address

namespace Filehost.Ip

open Filehost.Data

/-! # Quota buckets

A bucket is described twice: by the key of the in-memory throttles and by the
interval the quota queries hand to `BETWEEN`. -/

theorem Ipv6Addr.fillTail_size (address : Ipv6Addr) (fill : UInt8) :
    (address.octets.take 8 ++ List.replicate 8 fill).length = 16 := by
  simp [address.size]

def Ipv6Addr.fillTail (address : Ipv6Addr) (fill : UInt8) : Ipv6Addr :=
  ⟨address.octets.take 8 ++ List.replicate 8 fill, address.fillTail_size fill⟩

def normalizeForQuota : IpAddr → IpAddr
  | .v4 address => .v4 address
  | .v6 address => .v6 (address.fillTail 0)

def quotaRange : IpAddr → IpAddr × IpAddr
  | .v4 address => (.v4 address, .v4 address)
  | .v6 address => (normalizeForQuota (.v6 address), .v6 (address.fillTail 0xff))

/-- `uploader_ip BETWEEN ? AND ?` with the bounds of the client's quota range
and the bytes stored for the uploader. -/
def countedBy (client uploader : IpAddr) : Prop :=
  toDbBytes (quotaRange client).1 ≤ toDbBytes uploader ∧
    toDbBytes uploader ≤ toDbBytes (quotaRange client).2

instance (client uploader : IpAddr) : Decidable (countedBy client uploader) :=
  inferInstanceAs (Decidable (_ ∧ _))

theorem least_octet (octet : UInt8) : ¬ octet < 0 := by
  simp [UInt8.lt_iff_toNat_lt]

theorem greatest_octet (octet : UInt8) : ¬ (0xff : UInt8) < octet := by
  have bound := octet.toNat_lt
  simp only [UInt8.lt_iff_toNat_lt, UInt8.toNat_ofNat]
  omega

theorem toDbBytes_split (address : IpAddr) :
    (toDbBytes address).take 8 ++ (toDbBytes address).drop 8 = toDbBytes address :=
  List.take_append_drop 8 _

theorem countedBy_v4_iff (client : Ipv4Addr) (uploader : IpAddr) :
    countedBy (.v4 client) uploader ↔ toDbBytes uploader = toDbBytes (.v4 client) := by
  constructor
  · intro counted
    obtain ⟨lower, upper⟩ := counted
    exact List.le_antisymm upper lower
  · intro same
    simp only [countedBy, quotaRange, same]
    exact ⟨List.le_refl _, List.le_refl _⟩

theorem countedBy_v6_iff (client : Ipv6Addr) (uploader : IpAddr) :
    countedBy (.v6 client) uploader ↔ client.octets.take 8 = (toDbBytes uploader).take 8 := by
  have width : (client.octets.take 8).length = ((toDbBytes uploader).take 8).length := by
    simp [client.size, toDbBytes_length]
  have tail : ((toDbBytes uploader).drop 8).length = 8 := by simp [toDbBytes_length]
  have block := Lexicographic.mem_block_iff least_octet greatest_octet
    ((toDbBytes uploader).drop 8) width
  rw [toDbBytes_split, tail] at block
  exact block

theorem normalizeForQuota_v6_eq_iff (left right : Ipv6Addr) :
    normalizeForQuota (.v6 left) = normalizeForQuota (.v6 right) ↔
      left.octets.take 8 = right.octets.take 8 := by
  simp only [normalizeForQuota, Ipv6Addr.fillTail, IpAddr.v6.injEq, Ipv6Addr.mk.injEq]
  exact List.append_left_inj _

theorem normalizeForQuota_v4_eq_iff (left right : Ipv4Addr) :
    normalizeForQuota (.v4 left) = normalizeForQuota (.v4 right) ↔ left = right := by
  simp [normalizeForQuota]

def Ipv6Addr.InZeroBlock (address : Ipv6Addr) : Prop :=
  address.octets.take 8 = List.replicate 8 0

/-- The two pairs of spellings on which the interval crosses families: an IPv4
client against the IPv6 spelling of its own address, and an IPv6 client of
`::/64` against any IPv4 uploader. -/
def CrossesFamilies : IpAddr → IpAddr → Prop
  | .v4 client, .v6 uploader => uploader = client.toIpv6Mapped
  | .v6 client, .v4 _ => client.InZeroBlock
  | _, _ => False

theorem toDbBytes_v4_take (address : Ipv4Addr) :
    (toDbBytes (.v4 address)).take 8 = List.replicate 8 0 := by
  simp [toDbBytes, Ipv4Addr.toIpv6Mapped, mappedPrefix]

/-- The quota query counts exactly the uploader's bucket unless the pair of
addresses crosses families. -/
theorem countedBy_iff_same_bucket_iff (client uploader : IpAddr) :
    (countedBy client uploader ↔ normalizeForQuota client = normalizeForQuota uploader) ↔
      ¬ CrossesFamilies client uploader := by
  cases client with
  | v4 client =>
      cases uploader with
      | v4 uploader =>
          rw [countedBy_v4_iff, toDbBytes_v4_inj, normalizeForQuota_v4_eq_iff, eq_comm]
          simp [CrossesFamilies]
      | v6 uploader =>
          have spelled : toDbBytes (.v6 uploader) = toDbBytes (.v4 client) ↔
              uploader = client.toIpv6Mapped :=
            ⟨Ipv6Addr.ext, fun same => by rw [same]; rfl⟩
          rw [countedBy_v4_iff, spelled]
          simp [normalizeForQuota, CrossesFamilies]
  | v6 client =>
      cases uploader with
      | v4 uploader =>
          rw [countedBy_v6_iff, toDbBytes_v4_take]
          simp [normalizeForQuota, CrossesFamilies, Ipv6Addr.InZeroBlock]
      | v6 uploader =>
          rw [countedBy_v6_iff, normalizeForQuota_v6_eq_iff]
          simp [CrossesFamilies, toDbBytes]

theorem loopback_counts_ipv4_upload :
    ¬ (countedBy (.v6 ⟨List.replicate 15 0 ++ [1], by decide⟩) (.v4 (.new 203 0 113 7)) ↔
      normalizeForQuota (.v6 ⟨List.replicate 15 0 ++ [1], by decide⟩) =
        normalizeForQuota (.v4 (.new 203 0 113 7))) := by
  decide

end Filehost.Ip
