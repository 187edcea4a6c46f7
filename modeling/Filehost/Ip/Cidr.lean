import Filehost.Data.Blocks
import Filehost.Ip.ClientIp
import Filehost.Ip.Notation
import Filehost.Ip.Value

namespace Filehost.Ip

open Filehost.Data Filehost.Data.Fields

/-! # CIDR blocks -/

/-- `str::split_once` at a character. -/
def splitOnce (separator : Char) (text : List Char) : Option (List Char × List Char) :=
  match text.dropWhile (· ≠ separator) with
  | [] => none
  | _ :: rest => some (text.takeWhile (· ≠ separator), rest)

def dropPlus : List Char → List Char
  | '+' :: digits => digits
  | digits => digits

/-- `str::parse::<u8>`, which lets a plus stand in front. -/
def u8FromStr (text : List Char) : Option Nat :=
  let digits := dropPlus text
  if digits = [] ∨ digits.any (fun char => (toDigit 10 char).isNone) then none
  else
    let value := digits.foldl (fun result char => result * 10 + (toDigit 10 char).getD 0) 0
    if 255 < value then none else some value

def bigEndian : (count : Nat) → (value : Nat) → List UInt8
  | 0, _ => []
  | count + 1, value => bigEndian count (value / 256) ++ [UInt8.ofNat value]

theorem bigEndian_length (count value : Nat) : (bigEndian count value).length = count := by
  induction count generalizing value with
  | zero => rfl
  | succ count ih => simp [bigEndian, ih]

/-- `u128::from`, and back. -/
def Ipv6Addr.toBits (address : Ipv6Addr) : BitVec 128 :=
  BitVec.ofNat 128 (address.octets.foldl (fun value octet => value * 256 + octet.toNat) 0)

def Ipv6Addr.ofBits (bits : BitVec 128) : Ipv6Addr :=
  ⟨bigEndian 16 bits.toNat, bigEndian_length 16 _⟩

/-- `u32::try_from`. -/
def toU32 (value : BitVec 128) : Option (BitVec 32) :=
  if value.toNat < 2 ^ 32 then some (value.setWidth 32) else none

/-- The block around an address, which alone is as long as its family is wide. -/
def Cidr.around (address : IpAddr) (prefixLength : Option Nat) : Option Cidr :=
  match address with
  | .v4 address => do
      let (start, stop) ← cidrBounds (address.toBits.setWidth 128) (prefixLength.getD 32) 32
      let start ← toU32 start
      let stop ← toU32 stop
      return ⟨.v4 (.ofBits start), .v4 (.ofBits stop)⟩
  | .v6 address => do
      let (start, stop) ← cidrBounds address.toBits (prefixLength.getD 128) 128
      return ⟨.v6 (.ofBits start), .v6 (.ofBits stop)⟩

def Cidr.parse (text : List Char) : Option Cidr := do
  let (addrPart, prefixPart) := match splitOnce '/' (trim isWhitespace text) with
    | some (addr, tail) => (addr, some tail)
    | none => (text, none)
  let address ← parseIpAddr (trim isWhitespace addrPart)
  let prefixLength ← match prefixPart with
    | some digits => (u8FromStr (trim isWhitespace digits)).map some
    | none => some none
  Cidr.around address prefixLength

/-! ## Addresses as words -/

theorem foldl_octets (octets : List UInt8) (before : Nat) :
    octets.foldl (fun value octet => value * 256 + octet.toNat) before =
      octetsValue octets + 256 ^ octets.length * before := by
  induction octets generalizing before with
  | nil => simp [octetsValue, Numerals.value]
  | cons octet octets ih =>
      rw [List.foldl_cons, ih, octetsValue, octetsValue, Numerals.value_cons, List.length_cons,
        Nat.pow_succ, Nat.mul_add, Nat.mul_comm before 256, ← Nat.mul_assoc]
      omega

theorem octetsValue_bigEndian (count value : Nat) :
    octetsValue (bigEndian count value) = value % 256 ^ count := by
  induction count generalizing value with
  | zero => simp [bigEndian, octetsValue, Numerals.value, Nat.mod_one]
  | succ count ih =>
      have low : octetsValue [UInt8.ofNat value] = value % 256 := by
        simp [octetsValue, Numerals.value]
      rw [bigEndian, octetsValue_append, ih, low, Nat.pow_succ, Nat.mul_comm _ 256,
        Nat.mod_mul, List.length_singleton, Nat.pow_one]

theorem Ipv4Addr.toNat_toBits (address : Ipv4Addr) :
    address.toBits.toNat = octetsValue address.octets := by
  rw [toBits, foldl_octets, Nat.mul_zero, Nat.add_zero, BitVec.toNat_ofNat,
    Nat.mod_eq_of_lt address.value_lt]

theorem Ipv4Addr.octetsValue_ofBits (bits : BitVec 32) :
    octetsValue (ofBits bits).octets = bits.toNat := by
  have bytes : (ofBits bits).octets = bigEndian 4 bits.toNat := by
    simp only [ofBits, new, bigEndian, Nat.shiftRight_eq_div_pow, Nat.div_div_eq_div_mul,
      List.nil_append, List.cons_append]
  rw [bytes, octetsValue_bigEndian]
  exact Nat.mod_eq_of_lt bits.isLt

theorem Ipv6Addr.value_lt (address : Ipv6Addr) : octetsValue address.octets < 2 ^ 128 := by
  have bound := octetsValue_lt address.octets
  rwa [address.size] at bound

theorem Ipv6Addr.toNat_toBits (address : Ipv6Addr) :
    address.toBits.toNat = octetsValue address.octets := by
  rw [toBits, foldl_octets, Nat.mul_zero, Nat.add_zero, BitVec.toNat_ofNat,
    Nat.mod_eq_of_lt address.value_lt]

theorem Ipv6Addr.octetsValue_ofBits (bits : BitVec 128) :
    octetsValue (ofBits bits).octets = bits.toNat := by
  rw [ofBits, octetsValue_bigEndian]
  exact Nat.mod_eq_of_lt bits.isLt

/-! ## The bounds of a block -/

def IpAddr.width : IpAddr → Nat
  | .v4 _ => 32
  | .v6 _ => 128

theorem cidrBounds_of_wide {address : BitVec 128} {prefixLength width : Nat}
    (wide : width < prefixLength) : cidrBounds address prefixLength width = none := if_pos wide

theorem cidrBounds_of_fits (address : BitVec 128) {prefixLength width : Nat}
    (fits : prefixLength ≤ width) (known : width ≤ 128) :
    ∃ start stop, cidrBounds address prefixLength width = some (start, stop) ∧
      start.toNat = Blocks.first (width - prefixLength) address.toNat ∧
      stop.toNat = Blocks.last (width - prefixLength) address.toNat := by
  have masks : (if width - prefixLength = 128 then BitVec.allOnes 128
      else (1#128 <<< (width - prefixLength)) - 1#128).toNat = 2 ^ (width - prefixLength) - 1 := by
    split
    · rename_i full
      rw [full]
      rfl
    · rename_i proper
      have small : 2 ^ (width - prefixLength) < 2 ^ 128 :=
        Nat.pow_lt_pow_right (by decide) (by omega)
      have shifted : (1#128 <<< (width - prefixLength)).toNat = 2 ^ (width - prefixLength) := by
        rw [BitVec.toNat_shiftLeft, Nat.shiftLeft_eq, BitVec.toNat_ofNat, Nat.one_mod_two_pow (by decide),
          Nat.one_mul, Nat.mod_eq_of_lt small]
      have positive := Nat.two_pow_pos (width - prefixLength)
      rw [BitVec.toNat_sub_of_le, shifted]
      · rfl
      · rw [BitVec.le_def, shifted]
        exact positive
  exact ⟨_, _, if_neg (Nat.not_lt.mpr fits), Blocks.toNat_and_not masks, Blocks.toNat_or masks⟩

theorem cidrBounds_v4 (address : Ipv4Addr) {prefixLength : Nat} (fits : prefixLength ≤ 32) :
    ∃ start stop, cidrBounds (address.toBits.setWidth 128) prefixLength 32 = some (start, stop) ∧
      start.toNat = Blocks.first (32 - prefixLength) (octetsValue address.octets) ∧
      stop.toNat = Blocks.last (32 - prefixLength) (octetsValue address.octets) ∧
      start.toNat < 2 ^ 32 ∧ stop.toNat < 2 ^ 32 := by
  obtain ⟨start, stop, bounds, first, last⟩ :=
    cidrBounds_of_fits (address.toBits.setWidth 128) fits (by decide)
  have same : (address.toBits.setWidth 128).toNat = octetsValue address.octets := by
    rw [BitVec.toNat_setWidth_of_le (by decide), address.toNat_toBits]
  rw [same] at first last
  refine ⟨start, stop, bounds, first, last, ?_, ?_⟩
  · rw [first]
    exact (Blocks.first_le _ _).trans_lt address.value_lt
  · rw [last]
    exact Blocks.last_lt address.value_lt (Nat.sub_le _ _)

theorem octetsValue_ofBits_setWidth {bits : BitVec 128} (small : bits.toNat < 2 ^ 32) :
    octetsValue (Ipv4Addr.ofBits (bits.setWidth 32)).octets = bits.toNat := by
  rw [Ipv4Addr.octetsValue_ofBits, BitVec.toNat_setWidth, Nat.mod_eq_of_lt small]

/-- The block of a prefix that its family allows lies in that family, between the
bounds that the prefix leaves open. -/
theorem Cidr.around_v4 (address : Ipv4Addr) {prefixLength : Nat} (fits : prefixLength ≤ 32) :
    ∃ start stop : Ipv4Addr,
      Cidr.around (.v4 address) (some prefixLength) = some ⟨.v4 start, .v4 stop⟩ ∧
        octetsValue start.octets =
          Blocks.first (32 - prefixLength) (octetsValue address.octets) ∧
        octetsValue stop.octets = Blocks.last (32 - prefixLength) (octetsValue address.octets) := by
  obtain ⟨start, stop, bounds, first, last, startSmall, stopSmall⟩ := cidrBounds_v4 address fits
  have small : toU32 start = some (start.setWidth 32) ∧ toU32 stop = some (stop.setWidth 32) :=
    ⟨if_pos startSmall, if_pos stopSmall⟩
  refine ⟨.ofBits (start.setWidth 32), .ofBits (stop.setWidth 32), ?_, ?_, ?_⟩
  · simp [around, bounds, small]
  · rw [octetsValue_ofBits_setWidth startSmall, first]
  · rw [octetsValue_ofBits_setWidth stopSmall, last]

theorem Cidr.around_v6 (address : Ipv6Addr) {prefixLength : Nat} (fits : prefixLength ≤ 128) :
    ∃ start stop : Ipv6Addr,
      Cidr.around (.v6 address) (some prefixLength) = some ⟨.v6 start, .v6 stop⟩ ∧
        octetsValue start.octets =
          Blocks.first (128 - prefixLength) (octetsValue address.octets) ∧
        octetsValue stop.octets = Blocks.last (128 - prefixLength) (octetsValue address.octets) := by
  obtain ⟨start, stop, bounds, first, last⟩ :=
    cidrBounds_of_fits address.toBits fits (by decide)
  rw [address.toNat_toBits] at first last
  refine ⟨.ofBits start, .ofBits stop, ?_, ?_, ?_⟩
  · simp [around, bounds]
  · rw [Ipv6Addr.octetsValue_ofBits, first]
  · rw [Ipv6Addr.octetsValue_ofBits, last]

theorem Cidr.around_of_wide {address : IpAddr} {prefixLength : Nat}
    (wide : address.width < prefixLength) : Cidr.around address (some prefixLength) = none := by
  cases address with
  | v4 address => simp [around, cidrBounds_of_wide (show 32 < prefixLength from wide)]
  | v6 address => simp [around, cidrBounds_of_wide (show 128 < prefixLength from wide)]

theorem Cidr.around_none (address : IpAddr) :
    Cidr.around address none = Cidr.around address (some address.width) := by
  cases address <;> rfl


/-! ## Reading a block -/

theorem code_of_inAddress {char : Char} (inside : InAddress char) :
    46 ≤ char.toNat ∧ char.toNat ≤ 102 ∧ char.toNat ≠ 47 := by
  have codes : '0'.toNat = 48 ∧ '9'.toNat = 57 ∧ 'a'.toNat = 97 ∧ 'z'.toNat = 122 ∧
      'A'.toNat = 65 ∧ 'Z'.toNat = 90 := by decide
  rcases inside with digit | rfl | rfl
  · simp only [toDigit, Char.le_def, UInt32.le_iff_toNat_le, Char.toNat_val] at digit
    split at digit
    · omega
    · split at digit
      · split at digit
        · omega
        · contradiction
      · split at digit
        · split at digit
          · omega
          · contradiction
        · contradiction
  · decide
  · decide

theorem isWhitespace_of_code {char : Char} (above : 33 ≤ char.toNat) (below : char.toNat ≤ 126) :
    isWhitespace char = false := by
  simp only [isWhitespace, Bool.or_eq_false_iff, Bool.and_eq_false_iff, decide_eq_false_iff_not,
    beq_eq_false_iff_ne]
  omega

theorem splitOnce_append {separator : Char} {text : List Char} (absent : separator ∉ text)
    (rest : List Char) : splitOnce separator (text ++ separator :: rest) = some (text, rest) := by
  have inside : ∀ char ∈ text, (decide (char ≠ separator)) = true := by
    intro char member
    exact decide_eq_true fun same => absent (same ▸ member)
  have ending : ∀ char ∈ (separator :: rest).head?, decide (char ≠ separator) = false := by simp
  rw [splitOnce, List.dropWhile_append_of_pos inside, takeWhile_of_ending inside ending]
  simp

theorem splitOnce_of_absent {separator : Char} {text : List Char} (absent : separator ∉ text) :
    splitOnce separator text = none := by
  have all : text.dropWhile (fun char => decide (char ≠ separator)) = [] := by
    apply List.dropWhile_eq_nil_iff.mpr
    intro char member
    exact decide_eq_true fun same => absent (same ▸ member)
  simp only [splitOnce, all]

theorem dropPlus_digits {digits : List Char} (decimal : ∀ char ∈ digits, char.isDigit = true) :
    dropPlus digits = digits := by
  unfold dropPlus
  split
  · have digit : '+'.isDigit = true := decimal '+' (by simp)
    contradiction
  · rfl

/-- A number is read when it is at most 255. -/
theorem u8FromStr_digits {digits : List Char} (decimal : ∀ char ∈ digits, char.isDigit = true)
    (nonempty : digits ≠ []) :
    u8FromStr digits =
      if Nat.ofDigitChars 10 digits 0 ≤ 255 then some (Nat.ofDigitChars 10 digits 0) else none := by
  have readable : (digits.any fun char => (toDigit 10 char).isNone) = false := by
    apply List.any_eq_false.mpr
    intro char member
    rw [← Option.not_isSome, toDigit_ten_isSome, decimal char member]
    decide
  simp only [u8FromStr, dropPlus_digits decimal, readable, nonempty, Bool.false_eq_true, or_self,
    ↓reduceIte, foldl_toDigit_ten decimal]
  by_cases small : Nat.ofDigitChars 10 digits 0 ≤ 255
  · simp [small, Nat.not_lt.mpr small]
  · simp [small, Nat.not_le.mp small]

section Reading

variable {text digits : List Char}

theorem not_slash_mem (inside : ∀ char ∈ text, InAddress char) : '/' ∉ text :=
  fun member => (code_of_inAddress (inside _ member)).2.2 rfl

theorem isWhitespace_of_inAddress {char : Char} (inside : InAddress char) :
    isWhitespace char = false := by
  have code := code_of_inAddress inside
  exact isWhitespace_of_code (by omega) (by omega)

theorem inAddress_of_isDigit {char : Char} (digit : char.isDigit = true) : InAddress char := by
  refine .inl ?_
  rw [toDigit_of_isDigit (by decide) digit]
  rfl

theorem Cidr.parse_bare (inside : ∀ char ∈ text, InAddress char) :
    Cidr.parse text = (parseIpAddr text).bind fun address => Cidr.around address none := by
  have trimmed : trim isWhitespace text = text :=
    trim_of_no_blank fun char member => isWhitespace_of_inAddress (inside char member)
  simp [Cidr.parse, trimmed, splitOnce_of_absent (not_slash_mem inside)]

theorem trim_slashed (inside : ∀ char ∈ text, InAddress char)
    (decimal : ∀ char ∈ digits, char.isDigit = true) :
    trim isWhitespace (text ++ '/' :: digits) = text ++ '/' :: digits := by
  apply trim_of_no_blank
  intro char member
  rcases List.mem_append.mp member with member | member
  · exact isWhitespace_of_inAddress (inside char member)
  · rcases List.mem_cons.mp member with rfl | member
    · decide
    · exact isWhitespace_of_inAddress (inAddress_of_isDigit (decimal char member))

theorem Cidr.parse_slashed (inside : ∀ char ∈ text, InAddress char)
    (decimal : ∀ char ∈ digits, char.isDigit = true) (nonempty : digits ≠ []) :
    Cidr.parse (text ++ '/' :: digits) = (parseIpAddr text).bind fun address =>
      Cidr.around address (some (Nat.ofDigitChars 10 digits 0)) := by
  have textTrimmed : trim isWhitespace text = text :=
    trim_of_no_blank fun char member => isWhitespace_of_inAddress (inside char member)
  have digitsTrimmed : trim isWhitespace digits = digits :=
    trim_of_no_blank fun char member =>
      isWhitespace_of_inAddress (inAddress_of_isDigit (decimal char member))
  have cut : splitOnce '/' (text ++ '/' :: digits) = some (text, digits) :=
    splitOnce_append (not_slash_mem inside) digits
  simp only [Cidr.parse, trim_slashed inside decimal, cut, textTrimmed, digitsTrimmed,
    u8FromStr_digits decimal nonempty, Option.bind_eq_bind]
  cases parseIpAddr text with
  | none => rfl
  | some address =>
      by_cases small : Nat.ofDigitChars 10 digits 0 ≤ 255
      · simp [small]
      · have wide : address.width < Nat.ofDigitChars 10 digits 0 := by
          cases address <;> simp only [IpAddr.width] <;> omega
        simp [small, Cidr.around_of_wide wide]

end Reading

/-- An address with the length of a prefix behind it. -/
def slashed (text : List Char) (prefixLength : Nat) : List Char :=
  text ++ '/' :: Nat.toDigits 10 prefixLength

theorem Cidr.parse_of_reads {text : List Char} {address : IpAddr}
    (reads : parseIpAddr text = some address) (prefixLength : Nat) :
    Cidr.parse (slashed text prefixLength) = Cidr.around address (some prefixLength) := by
  rw [slashed, Cidr.parse_slashed (parseIpAddr_inAddress reads) (fun _ => isDigit_of_mem_toDigits)
    Nat.toDigits_ne_nil, reads, Option.bind_some, Nat.ofDigitChars_ten_toDigits]

/-! ## What a block contains -/

/-- An address of the same family as another that agrees with it on its first
`prefixLength` bits. -/
def Agrees (address : IpAddr) (prefixLength : Nat) (other : IpAddr) : Prop :=
  sameFamily address other.canonical = true ∧
    other.canonical.value / 2 ^ (address.width - prefixLength) =
      address.value / 2 ^ (address.width - prefixLength)

/-- `written` is read as the block of the first `prefixLength` bits of an address. -/
def Exact (written : List Char) (address : IpAddr) (prefixLength : Nat) : Prop :=
  ∃ block, Cidr.parse written = some block ∧
    ∀ other, block.contains other = true ↔ Agrees address prefixLength other

/-- An IPv6 address whose first bits are those of `::ffff:0.0.0.0`. -/
def CoversMapped (address : IpAddr) (prefixLength : Nat) : Prop :=
  match address with
  | .v4 _ => False
  | .v6 address =>
      octetsValue address.octets / 2 ^ (128 - prefixLength) = mappedBase / 2 ^ (128 - prefixLength)

instance (address : IpAddr) (prefixLength : Nat) :
    Decidable (CoversMapped address prefixLength) :=
  match address with
  | .v4 _ => inferInstanceAs (Decidable False)
  | .v6 _ => inferInstanceAs (Decidable (_ = _))

theorem Cidr.contains_iff (block : Cidr) (address : IpAddr) :
    block.contains address = true ↔
      octetsValue (toDbBytes block.start) ≤ octetsValue (toDbBytes address) ∧
        octetsValue (toDbBytes address) ≤ octetsValue (toDbBytes block.stop) := by
  rw [Cidr.contains, decide_eq_true_eq, toDbBytes_le_iff, toDbBytes_le_iff]

theorem canonical_cases (address : IpAddr) :
    (∃ carried, address.canonical = .v4 carried ∧
      octetsValue (toDbBytes address) = mappedBase + octetsValue carried.octets) ∨
    ∃ own, address.canonical = .v6 own ∧ own.toIpv4Mapped = none ∧
      octetsValue (toDbBytes address) = octetsValue own.octets := by
  have stored := octetsValue_toDbBytes address
  cases canonical : address.canonical with
  | v4 carried => exact .inl ⟨carried, rfl, by rw [stored, canonical]⟩
  | v6 own =>
      refine .inr ⟨own, rfl, ?_, by rw [stored, canonical]⟩
      cases address with
      | v4 address => contradiction
      | v6 address =>
          simp only [IpAddr.canonical] at canonical
          split at canonical
          · contradiction
          · cases canonical
            assumption

/-- A block of numbers reaches the mapped addresses at their first, or not at all. -/
theorem meets_mapped_iff {address : Ipv6Addr} (unmapped : address.toIpv4Mapped = none) (bits : Nat) :
    (∃ low < 2 ^ 32, (mappedBase + low) / 2 ^ bits = octetsValue address.octets / 2 ^ bits) ↔
      octetsValue address.octets / 2 ^ bits = mappedBase / 2 ^ bits := by
  constructor
  · intro ⟨low, small, meets⟩
    have same : (mappedBase + low) / 2 ^ 32 = mappedBase / 2 ^ 32 := by
      unfold mappedBase
      omega
    rcases Nat.lt_or_ge bits 32 with short | long
    · -- the first 96 bits are among those that agree, so the address is mapped itself
      obtain ⟨more, split⟩ := Nat.exists_eq_add_of_lt short
      have leading := congrArg (· / 2 ^ (more + 1)) meets
      simp only [Nat.div_div_eq_div_mul, ← Nat.pow_add] at leading
      rw [show bits + (more + 1) = 32 by omega, same] at leading
      have outside := outside_of_unmapped unmapped
      simp only [mappedBase] at outside leading
      omega
    · obtain ⟨more, rfl⟩ := Nat.exists_eq_add_of_le long
      rw [← meets, Nat.pow_add, ← Nat.div_div_eq_div_mul, ← Nat.div_div_eq_div_mul, same]
  · intro meets
    exact ⟨0, by decide, by rw [Nat.add_zero, meets]⟩

/-- An IPv4 block stays among the mapped addresses. -/
theorem contains_v4_iff {address : Ipv4Addr} {prefixLength : Nat} {start stop : Ipv4Addr}
    (first : octetsValue start.octets =
      Blocks.first (32 - prefixLength) (octetsValue address.octets))
    (last : octetsValue stop.octets = Blocks.last (32 - prefixLength) (octetsValue address.octets))
    (other : IpAddr) :
    Cidr.contains ⟨.v4 start, .v4 stop⟩ other = true ↔ Agrees (.v4 address) prefixLength other := by
  have startStored := octetsValue_toIpv6Mapped start
  have stopStored := octetsValue_toIpv6Mapped stop
  have small := Blocks.last_lt address.value_lt (Nat.sub_le 32 prefixLength)
  rw [first] at startStored
  rw [last] at stopStored
  rw [Cidr.contains_iff, Agrees]
  simp only [toDbBytes, startStored, stopStored, IpAddr.width]
  change _ ≤ octetsValue (toDbBytes other) ∧ octetsValue (toDbBytes other) ≤ _ ↔ _
  rcases canonical_cases other with ⟨carried, canonical, stored⟩ | ⟨own, canonical, unmapped, stored⟩
  · rw [stored, canonical]
    simp only [sameFamily, IpAddr.value, true_and, Nat.add_le_add_iff_left]
    exact Blocks.mem_iff _ _
  · rw [stored, canonical]
    simp only [sameFamily, Bool.false_eq_true, false_and, iff_false]
    have outside := outside_of_unmapped unmapped
    omega

/-- An IPv6 block takes the mapped addresses in as numbers. -/
theorem contains_v6_iff {address start stop : Ipv6Addr} {prefixLength : Nat}
    (first : octetsValue start.octets =
      Blocks.first (128 - prefixLength) (octetsValue address.octets))
    (last : octetsValue stop.octets = Blocks.last (128 - prefixLength) (octetsValue address.octets))
    (other : IpAddr) :
    Cidr.contains ⟨.v6 start, .v6 stop⟩ other = true ↔
      octetsValue (toDbBytes other) / 2 ^ (128 - prefixLength) =
        octetsValue address.octets / 2 ^ (128 - prefixLength) := by
  rw [Cidr.contains_iff]
  change octetsValue start.octets ≤ _ ∧ _ ≤ octetsValue stop.octets ↔ _
  rw [first, last]
  exact Blocks.mem_iff _ _

theorem toIpv4Mapped_of_own {address : Ipv6Addr}
    (own : (IpAddr.v6 address).canonical = .v6 address) : address.toIpv4Mapped = none := by
  cases mapped : address.toIpv4Mapped with
  | none => rfl
  | some carried => simp [IpAddr.canonical, mapped] at own

theorem not_coversMapped_of_full {address : IpAddr} (own : address.canonical = address) :
    ¬CoversMapped address address.width := by
  cases address with
  | v4 address => exact id
  | v6 address =>
      have outside := outside_of_unmapped (toIpv4Mapped_of_own own)
      simp only [CoversMapped, IpAddr.width, Nat.sub_self, Nat.pow_zero, Nat.div_one]
      omega

/-- A block in its own family is what its prefix says, unless it is an IPv6 block
with the mapped addresses in it. -/
theorem exact_iff {written : List Char} {address : IpAddr} {prefixLength : Nat}
    (own : address.canonical = address) (fits : prefixLength ≤ address.width)
    (parsed : Cidr.parse written = Cidr.around address (some prefixLength)) :
    Exact written address prefixLength ↔ ¬CoversMapped address prefixLength := by
  cases address with
  | v4 address =>
      obtain ⟨start, stop, around, first, last⟩ := Cidr.around_v4 address fits
      have exactly : Exact written (.v4 address) prefixLength := by
        exact ⟨_, parsed.trans around, contains_v4_iff first last⟩
      simp [exactly, CoversMapped]
  | v6 address =>
      obtain ⟨start, stop, around, first, last⟩ := Cidr.around_v6 address fits
      have unmapped := toIpv4Mapped_of_own own
      rw [CoversMapped, ← meets_mapped_iff unmapped, Exact, parsed.trans around]
      constructor
      · rintro ⟨block, same, exactly⟩ ⟨low, small, meets⟩
        cases same
        have bits : octetsValue (Ipv4Addr.ofBits (.ofNat 32 low)).octets = low := by
          rw [Ipv4Addr.octetsValue_ofBits, BitVec.toNat_ofNat, Nat.mod_eq_of_lt small]
        have inside := (contains_v6_iff first last (.v4 (.ofBits (.ofNat 32 low)))).mpr (by
          rwa [toDbBytes, octetsValue_toIpv6Mapped, bits])
        exact Bool.false_ne_true ((exactly _).mp inside).1
      · intro apart
        refine ⟨_, rfl, fun other => ?_⟩
        rw [contains_v6_iff first last, Agrees]
        rcases canonical_cases other with
          ⟨carried, canonical, stored⟩ | ⟨own, canonical, unmapped, stored⟩
        · rw [stored, canonical]
          simp only [sameFamily, Bool.false_eq_true, false_and, iff_false]
          exact fun meets => apart ⟨_, carried.value_lt, meets⟩
        · rw [stored, canonical]
          simp only [sameFamily, IpAddr.value, IpAddr.width, true_and]

/-- Blocks are read as their prefix says, and too wide a prefix is refused, but for
IPv6 blocks with the mapped addresses in them. -/
theorem parse_exact_iff {text : List Char} {address : IpAddr}
    (reads : parseIpAddr text = some address) (own : address.canonical = address) :
    (∀ prefixLength ≤ address.width,
      Exact (slashed text prefixLength) address prefixLength ↔ ¬CoversMapped address prefixLength) ∧
    Exact text address address.width ∧
    ∀ prefixLength > address.width, Cidr.parse (slashed text prefixLength) = none := by
  refine ⟨?_, ?_, ?_⟩
  · intro prefixLength fits
    exact exact_iff own fits (Cidr.parse_of_reads reads prefixLength)
  · apply (exact_iff own (Nat.le_refl _) ?_).mpr
    · exact not_coversMapped_of_full own
    · rw [Cidr.parse_bare (parseIpAddr_inAddress reads), reads, Option.bind_some, Cidr.around_none]
  · intro prefixLength wide
    rw [Cidr.parse_of_reads reads, Cidr.around_of_wide wide]

theorem parse_exact_iff_documentation :
    Exact "2001:db8::/32".toList
      (.v6 ⟨[0x20, 0x01, 0x0d, 0xb8, 0, 0, 0, 0, 0, 0, 0, 0, 0, 0, 0, 0], rfl⟩) 32 := by
  apply ((@parse_exact_iff "2001:db8::".toList _ _ _).1 32 _).mpr
  all_goals decide

/-- The block of every IPv6 address has the IPv4 addresses in it. -/
theorem ipv6_block_contains_ipv4 :
    ∃ block, Cidr.parse "::/0".toList = some block ∧
      block.contains (.v4 (.new 8 8 8 8)) = true ∧
      ¬Agrees (.v6 ⟨List.replicate 16 0, rfl⟩) 0 (.v4 (.new 8 8 8 8)) := by
  refine ⟨⟨.v6 ⟨List.replicate 16 0, rfl⟩, .v6 ⟨List.replicate 16 0xff, rfl⟩⟩, ?_, ?_, ?_⟩
  · rfl
  · decide
  · exact fun agrees => Bool.false_ne_true agrees.1

end Filehost.Ip
