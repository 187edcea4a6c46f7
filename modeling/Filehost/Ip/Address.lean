import Filehost.Data.Lexicographic

namespace Filehost.Ip

/-! Addresses carry their octets in network order, as the standard library
stores them.  The length fields make a malformed address unrepresentable. -/

structure Ipv4Addr where
  octets : List UInt8
  size : octets.length = 4
deriving DecidableEq

def Ipv4Addr.new (a b c d : UInt8) : Ipv4Addr := ⟨[a, b, c, d], rfl⟩

structure Ipv6Addr where
  octets : List UInt8
  size : octets.length = 16
deriving DecidableEq

inductive IpAddr where
  | v4 (address : Ipv4Addr)
  | v6 (address : Ipv6Addr)
deriving DecidableEq

theorem Ipv4Addr.ext {left right : Ipv4Addr} (same : left.octets = right.octets) :
    left = right := by
  cases left
  cases right
  cases same
  rfl

theorem Ipv6Addr.ext {left right : Ipv6Addr} (same : left.octets = right.octets) :
    left = right := by
  cases left
  cases right
  cases same
  rfl

def mappedPrefix : List UInt8 := List.replicate 10 0 ++ [0xff, 0xff]

def Ipv4Addr.toIpv6Mapped (address : Ipv4Addr) : Ipv6Addr where
  octets := mappedPrefix ++ address.octets
  size := by simp [mappedPrefix, address.size]

def Ipv6Addr.toIpv4Mapped (address : Ipv6Addr) : Option Ipv4Addr :=
  if address.octets.take 12 = mappedPrefix then
    some ⟨address.octets.drop 12, by simp [address.size]⟩
  else none

def toDbBytes : IpAddr → List UInt8
  | .v4 address => address.toIpv6Mapped.octets
  | .v6 address => address.octets

def fromDbBytes (bytes : List UInt8) : Option IpAddr :=
  if size : bytes.length = 16 then
    let address : Ipv6Addr := ⟨bytes, size⟩
    some (match address.toIpv4Mapped with
      | some mapped => .v4 mapped
      | none => .v6 address)
  else none

def sameFamily : IpAddr → IpAddr → Bool
  | .v4 _, .v4 _ | .v6 _, .v6 _ => true
  | _, _ => false

/-- `u32::from`, and back. -/
def Ipv4Addr.toBits (address : Ipv4Addr) : BitVec 32 :=
  BitVec.ofNat 32 (address.octets.foldl (fun value octet => value * 256 + octet.toNat) 0)

def Ipv4Addr.ofBits (bits : BitVec 32) : Ipv4Addr :=
  .new (UInt8.ofNat (bits.toNat >>> 24)) (UInt8.ofNat (bits.toNat >>> 16))
    (UInt8.ofNat (bits.toNat >>> 8)) (UInt8.ofNat bits.toNat)

/-- The first and last address of a block, of a family `width` bits wide. -/
def cidrBounds (address : BitVec 128) (prefixLength width : Nat) :
    Option (BitVec 128 × BitVec 128) :=
  if width < prefixLength then none
  else
    let hostBits := width - prefixLength
    let hostMask := if hostBits = 128 then BitVec.allOnes 128 else (1#128 <<< hostBits) - 1#128
    some (address &&& ~~~hostMask, address ||| hostMask)

theorem toDbBytes_length (address : IpAddr) : (toDbBytes address).length = 16 := by
  cases address with
  | v4 address => exact address.toIpv6Mapped.size
  | v6 address => exact address.size

theorem toDbBytes_v4_inj {left right : Ipv4Addr} :
    toDbBytes (.v4 left) = toDbBytes (.v4 right) ↔ left = right := by
  constructor
  · intro same
    exact Ipv4Addr.ext (List.append_cancel_left same)
  · intro same
    subst same
    rfl

/-- Reading a stored address back yields its canonical spelling: a mapped
IPv6 address comes back as the IPv4 address it carries. -/
theorem fromDbBytes_toDbBytes_v4 (address : Ipv4Addr) :
    fromDbBytes (toDbBytes (.v4 address)) = some (.v4 address) := by
  have width : (toDbBytes (.v4 address)).length = 16 := toDbBytes_length _
  have leading : (toDbBytes (.v4 address)).take 12 = mappedPrefix := by
    simp [toDbBytes, Ipv4Addr.toIpv6Mapped, mappedPrefix]
  have trailing : (toDbBytes (.v4 address)).drop 12 = address.octets := by
    simp [toDbBytes, Ipv4Addr.toIpv6Mapped, mappedPrefix]
  simp only [fromDbBytes, width, ↓reduceDIte, Ipv6Addr.toIpv4Mapped, leading, ↓reduceIte,
    trailing]

end Filehost.Ip
