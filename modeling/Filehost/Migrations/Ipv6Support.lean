import Filehost.Ip.Cidr
import Filehost.Upload.Quota
import Filehost.Util.Hex

namespace Filehost.Migrations

open Filehost.Data Filehost.Database Filehost.Ip Filehost.Store Filehost.Upload Filehost.Util

/-! # The migration to IPv6

Addresses were numbers.  The statements of the migration write each of them as a text and the
text as bytes, where the queries go on comparing them. -/

/-- `HEX` of a number. -/
def hex (number : Nat) : List Char := (Nat.toDigits 16 number).map Char.toUpper

/-- `LPAD`, which cuts a text that is longer. -/
def lpad (text : List Char) (length : Nat) (pad : Char) : List Char :=
  List.replicate (length - text.length) pad ++ text.take length

def unhexPairs : List Char → Option (List UInt8)
  | [] => some []
  | [_] => none
  | first :: second :: rest => do
      let high ← Admin.hexDigit first
      let low ← Admin.hexDigit second
      let bytes ← unhexPairs rest
      return UInt8.ofNat (16 * high + low) :: bytes

/-- `UNHEX`.  The first digit of an odd number of digits stands alone. -/
def unhex (text : List Char) : Option (List UInt8) :=
  unhexPairs (if text.length % 2 = 0 then text else '0' :: text)

def mappedHex : List Char := "00000000000000000000FFFF".toList

/-- `UNHEX(CONCAT('00000000000000000000FFFF', LPAD(HEX(ipv4), 8, '0')))`. -/
def mappedBytes (ipv4 : BitVec 32) : Option (List UInt8) :=
  unhex (mappedHex ++ lpad (hex ipv4.toNat) 8 '0')

/-! ## The tables -/

/-- A row of `banned_ipv4_ranges`. -/
structure BannedIpv4Range where
  id : Int
  startIp : BitVec 32
  endIp : BitVec 32
  reason : Option (List Char)
  expiresTimestamp : Option Int
  blacklistId : Option Int
  type : BanType

/-- A row of `uploads`.  The address of some is not known. -/
structure Ipv4Upload where
  id : Uuid
  uploadTimestamp : Int
  expiryTimestamp : Int
  deletedTimestamp : Option Int
  originalName : List Char
  slug : List Char
  fileSize : Int
  hash : Option (List UInt8)
  uploaderIp : Option (BitVec 32)
  contentType : Option (List Char)
  userAgent : Option (List Char)

structure Ipv4Uploads where
  rows : List Ipv4Upload
  distinct : (rows.map Ipv4Upload.id).Nodup

def BannedIpv4Range.migrate (range : BannedIpv4Range) : Option BannedIpRange := do
  let startIp ← mappedBytes range.startIp
  let endIp ← mappedBytes range.endIp
  return ⟨range.id, startIp, endIp, range.reason, range.expiresTimestamp, range.blacklistId,
    range.type⟩

/-- The new columns take no missing address: the migration fails on one. -/
def migrateRanges (ranges : List BannedIpv4Range) : Option (List BannedIpRange) :=
  ranges.mapM BannedIpv4Range.migrate

def Ipv4Upload.migrate (row : Ipv4Upload) : Option Upload :=
  (row.uploaderIp.bind mappedBytes).map fun uploaderIp =>
    ⟨row.id, row.uploadTimestamp, row.expiryTimestamp, row.deletedTimestamp, row.originalName,
      row.slug, row.fileSize, row.hash, uploaderIp, row.contentType, row.userAgent⟩

theorem sublist_migrated_ids (rows : List Ipv4Upload) :
    ((rows.filterMap Ipv4Upload.migrate).map Upload.id).Sublist (rows.map Ipv4Upload.id) := by
  induction rows with
  | nil => exact List.nil_sublist _
  | cons row rest ih =>
      rw [List.map_cons]
      cases found : row.migrate with
      | none =>
          rw [List.filterMap_cons_none found]
          exact ih.cons _
      | some migrated =>
          rw [List.filterMap_cons_some found, List.map_cons]
          obtain ⟨uploaderIp, -, rfl⟩ := Option.map_eq_some_iff.mp found
          exact ih.cons_cons _

/-- The rows that have an address.  No address is between two others where there is none. -/
def migrateUploads (table : Ipv4Uploads) : Uploads where
  rows := table.rows.filterMap Ipv4Upload.migrate
  distinct := table.distinct.sublist (sublist_migrated_ids table.rows)

/-! ## Decisions on numbers -/

/-- `is_ip_banned` as it was, over numbers. -/
def isIpv4Banned (ranges : List BannedIpv4Range) (ip : BitVec 32) (banType : BanType) (now : Int) :
    Bool :=
  ranges.any fun range =>
    decide (range.startIp ≤ ip) && decide (ip ≤ range.endIp) &&
      decide (banType.severity ≤ range.type.severity) &&
      range.expiresTimestamp.all fun expires => decide (now < expires)

/-- The uploads of the last day from one address. -/
def ipv4LastDay (table : Ipv4Uploads) (ip : BitVec 32) (now : Int) : List Ipv4Upload :=
  table.rows.filter fun row =>
    decide (row.uploaderIp = some ip) && decide (now - secondsPerDay < row.uploadTimestamp)

def ipv4BytesLastDay (table : Ipv4Uploads) (ip : BitVec 32) (now : Int) : Int :=
  min ((ipv4LastDay table ip now).map Ipv4Upload.fileSize).sum i64Max

/-! ## Texts of digits -/

def digitOf (char : Char) : Nat := (Admin.hexDigit char).getD 0

theorem digitOf_upper {digit : Nat} (bound : digit < 16) :
    (Nat.digitChar digit).toUpper ∈ hexDigits ∧ digitOf (Nat.digitChar digit).toUpper = digit := by
  have all : ∀ digit < 16, (Nat.digitChar digit).toUpper ∈ hexDigits ∧
      digitOf (Nat.digitChar digit).toUpper = digit := by decide
  exact all digit bound

theorem value_hex (number : Nat) : Numerals.value 16 digitOf (hex number) = number := by
  rw [hex, Numerals.value_map]
  exact Numerals.value_toDigits (by decide) (fun _ bound => (digitOf_upper bound).2) number

theorem hex_digits (number : Nat) : ∀ char ∈ hex number, char ∈ hexDigits := by
  intro char member
  obtain ⟨written, writtenMember, rfl⟩ := List.mem_map.mp member
  obtain ⟨digit, bound, rfl⟩ := Numerals.exists_digit_of_mem_toDigits (by decide) writtenMember
  exact (digitOf_upper bound).1

theorem hex_length_le (ipv4 : BitVec 32) : (hex ipv4.toNat).length ≤ 8 := by
  rw [hex, List.length_map, Nat.length_toDigits_le_iff (by decide) (by decide)]
  exact ipv4.isLt

theorem lpad_hex_spec (ipv4 : BitVec 32) :
    (lpad (hex ipv4.toNat) 8 '0').length = 8 ∧
      Numerals.value 16 digitOf (lpad (hex ipv4.toNat) 8 '0') = ipv4.toNat ∧
      ∀ char ∈ lpad (hex ipv4.toNat) 8 '0', char ∈ hexDigits := by
  have short := hex_length_le ipv4
  rw [lpad, List.take_of_length_le short]
  refine ⟨?_, ?_, fun char member => ?_⟩
  · rw [List.length_append, List.length_replicate]
    omega
  · have zero : digitOf '0' = 0 := by decide
    rw [Numerals.value_padded zero, value_hex]
  · rcases List.mem_append.mp member with pad | written
    · rw [List.eq_of_mem_replicate pad]
      decide
    · exact hex_digits _ char written

theorem mappedHex_spec :
    mappedHex.length = 24 ∧ Numerals.value 16 digitOf mappedHex = 0xffff ∧
      ∀ char ∈ mappedHex, char ∈ hexDigits := by
  have digits : mappedHex.all (· ∈ hexDigits) = true := by decide
  refine ⟨rfl, ?_, fun char member => ?_⟩
  · decide
  · simpa using List.all_eq_true.mp digits char member

theorem unhexPairs_digits {text : List Char} (even : text.length % 2 = 0)
    (digits : ∀ char ∈ text, char ∈ hexDigits) :
    ∃ bytes, unhexPairs text = some bytes ∧ 2 * bytes.length = text.length ∧
      octetsValue bytes = Numerals.value 16 digitOf text := by
  induction text using unhexPairs.induct with
  | case1 => exact ⟨[], rfl, rfl, rfl⟩
  | case2 char => cases even
  | case3 first second rest ih =>
      rw [List.forall_mem_cons, List.forall_mem_cons] at digits
      rw [List.length_cons, List.length_cons] at even
      obtain ⟨firstDigit, secondDigit, restDigits⟩ := digits
      obtain ⟨high, highBound, highRead, -⟩ := hexDigits_read firstDigit
      obtain ⟨low, lowBound, lowRead, -⟩ := hexDigits_read secondDigit
      obtain ⟨bytes, read, width, same⟩ := ih (by omega) restDigits
      refine ⟨UInt8.ofNat (16 * high + low) :: bytes, ?_, ?_, ?_⟩
      · rw [unhexPairs, highRead, lowRead, read]
        rfl
      · rw [List.length_cons, List.length_cons, List.length_cons]
        omega
      · have byte : (UInt8.ofNat (16 * high + low)).toNat = 16 * high + low := by
          rw [UInt8.toNat_ofNat']
          omega
        have firstValue : digitOf first = high := by rw [digitOf, highRead, Option.getD_some]
        have secondValue : digitOf second = low := by rw [digitOf, lowRead, Option.getD_some]
        have powers : 256 ^ bytes.length = 16 ^ rest.length := by
          rw [← width, Nat.pow_mul]
        rw [octetsValue] at same
        rw [octetsValue, Numerals.value_cons, same, byte, Numerals.value_cons, Numerals.value_cons,
          firstValue, secondValue, powers, List.length_cons, Nat.pow_succ]
        ring

/-! ## What is written -/

theorem octetsValue_mapped (ipv4 : BitVec 32) :
    octetsValue (toDbBytes (.v4 (.ofBits ipv4))) = mappedBase + ipv4.toNat := by
  rw [toDbBytes, octetsValue_toIpv6Mapped, Ipv4Addr.octetsValue_ofBits]

/-- The text has as many digits as the stored address, and its number. -/
theorem mappedBytes_eq (ipv4 : BitVec 32) :
    mappedBytes ipv4 = some (toDbBytes (.v4 (.ofBits ipv4))) := by
  obtain ⟨leadLength, leadValue, leadDigits⟩ := mappedHex_spec
  obtain ⟨tailLength, tailValue, tailDigits⟩ := lpad_hex_spec ipv4
  have length : (mappedHex ++ lpad (hex ipv4.toNat) 8 '0').length = 32 := by
    rw [List.length_append, leadLength, tailLength]
  have even : (mappedHex ++ lpad (hex ipv4.toNat) 8 '0').length % 2 = 0 := by rw [length]
  obtain ⟨bytes, read, width, same⟩ :=
    unhexPairs_digits even (List.forall_mem_append.mpr ⟨leadDigits, tailDigits⟩)
  rw [mappedBytes, unhex, if_pos even, read]
  refine congrArg some (octetsValue_inj ?_ ?_)
  · rw [toDbBytes_length]
    omega
  · rw [same, Numerals.value_append, leadValue, tailValue, tailLength, octetsValue_mapped,
      mappedBase]
    omega

example : mappedBytes 0x0a000203#32 = some (mappedPrefix ++ [10, 0, 2, 3]) := by decide

theorem between_iff (startIp ip endIp : BitVec 32) :
    startIp ≤ ip ∧ ip ≤ endIp ↔
      toDbBytes (.v4 (.ofBits startIp)) ≤ toDbBytes (.v4 (.ofBits ip)) ∧
        toDbBytes (.v4 (.ofBits ip)) ≤ toDbBytes (.v4 (.ofBits endIp)) := by
  rw [toDbBytes_le_iff, toDbBytes_le_iff, octetsValue_mapped, octetsValue_mapped,
    octetsValue_mapped, BitVec.le_def, BitVec.le_def, Nat.add_le_add_iff_left,
    Nat.add_le_add_iff_left]

/-! ## Bans -/

def BannedIpv4Range.mapped (range : BannedIpv4Range) : BannedIpRange :=
  ⟨range.id, toDbBytes (.v4 (.ofBits range.startIp)), toDbBytes (.v4 (.ofBits range.endIp)),
    range.reason, range.expiresTimestamp, range.blacklistId, range.type⟩

theorem migrateRanges_eq (ranges : List BannedIpv4Range) :
    migrateRanges ranges = some (ranges.map BannedIpv4Range.mapped) := by
  induction ranges with
  | nil => rfl
  | cons range rest ih =>
      have migrated : range.migrate = some range.mapped := by
        rw [BannedIpv4Range.migrate, mappedBytes_eq, mappedBytes_eq]
        rfl
      rw [migrateRanges] at ih
      rw [migrateRanges, List.mapM_cons, migrated, ih]
      rfl

theorem isIpBanned_mapped (tables : BanTables) (ranges : List BannedIpv4Range) (ip : BitVec 32)
    (banType : BanType) (now : Int) :
    { tables with ipRanges := ranges.map BannedIpv4Range.mapped }.isIpBanned (.v4 (.ofBits ip))
      banType now = isIpv4Banned ranges ip banType now := by
  rw [BanTables.isIpBanned, isIpv4Banned, List.any_map]
  congr 1
  funext range
  rw [Bool.eq_iff_iff]
  simp only [Function.comp_apply, Bool.and_eq_true, decide_eq_true_eq,
    between_iff range.startIp ip range.endIp]
  exact Iff.rfl

/-! ## Quotas -/

theorem inQuotaRange_mapped (ip uploader : BitVec 32) :
    inQuotaRange (.v4 (.ofBits ip)) (toDbBytes (.v4 (.ofBits uploader))) = true ↔
      uploader = ip := by
  rw [inQuotaRange_iff, countedBy_v4_iff]
  constructor
  · intro same
    have numbers := congrArg octetsValue same
    rw [octetsValue_mapped, octetsValue_mapped] at numbers
    exact BitVec.eq_of_toNat_eq (Nat.add_left_cancel numbers)
  · rintro rfl
    rfl

def Ipv4Upload.mapped (row : Ipv4Upload) (uploader : BitVec 32) : Upload :=
  ⟨row.id, row.uploadTimestamp, row.expiryTimestamp, row.deletedTimestamp, row.originalName,
    row.slug, row.fileSize, row.hash, toDbBytes (.v4 (.ofBits uploader)), row.contentType,
    row.userAgent⟩

theorem Ipv4Upload.migrate_eq (row : Ipv4Upload) :
    row.migrate = row.uploaderIp.map row.mapped := by
  cases address : row.uploaderIp with
  | none =>
      rw [migrate, address]
      rfl
  | some uploader =>
      rw [migrate, address, Option.bind_some, mappedBytes_eq]
      rfl

/-- Of the rows a quota counts, the columns it reads are as before. -/
theorem lastDay_migrated (table : Ipv4Uploads) (ip : BitVec 32) (now : Int) :
    (lastDay (migrateUploads table) (.v4 (.ofBits ip)) now).map Upload.fileSize =
      (ipv4LastDay table ip now).map Ipv4Upload.fileSize := by
  rw [lastDay, ipv4LastDay, migrateUploads, List.filter_filterMap, List.map_filterMap,
    ← List.filterMap_eq_filter, List.map_filterMap]
  refine List.filterMap_congr fun row _ => ?_
  rw [row.migrate_eq, Option.guard_apply]
  cases address : row.uploaderIp with
  | none => simp
  | some uploader =>
      have counted : inQuotaRange (.v4 (.ofBits ip)) (row.mapped uploader).uploaderIp =
          decide (uploader = ip) := by
        rw [Bool.eq_iff_iff, decide_eq_true_eq]
        exact inQuotaRange_mapped ip uploader
      have uploaded : (row.mapped uploader).uploadTimestamp = row.uploadTimestamp := rfl
      rw [Option.map_some, Option.filter_some, counted, uploaded]
      simp only [Option.some.injEq]
      split <;> rfl

theorem sumFileSize_eq (rows : List Upload) :
    sumFileSize rows = (rows.map Upload.fileSize).sum := by
  rw [sumFileSize, List.sum, List.foldr_map]

/-- What is written are the bytes of the address, which reads back.  Comparing bytes is
comparing numbers.  So each table of bans bans the clients it banned, and each quota counts the
uploads it counted. -/
theorem ipv6_support_preserves_decisions :
    (∀ ip : BitVec 32, ∃ bytes, mappedBytes ip = some bytes ∧
        bytes = toDbBytes (.v4 (.ofBits ip)) ∧ fromDbBytes bytes = some (.v4 (.ofBits ip))) ∧
      (∀ startIp ip endIp : BitVec 32, ∃ first last,
        mappedBytes startIp = some first ∧ mappedBytes endIp = some last ∧
          (startIp ≤ ip ∧ ip ≤ endIp ↔
            first ≤ toDbBytes (.v4 (.ofBits ip)) ∧ toDbBytes (.v4 (.ofBits ip)) ≤ last)) ∧
      (∀ ranges, ∃ migrated, migrateRanges ranges = some migrated ∧
        ∀ (tables : BanTables) ip banType now,
          { tables with ipRanges := migrated }.isIpBanned (.v4 (.ofBits ip)) banType now =
            isIpv4Banned ranges ip banType now) ∧
      ∀ table ip now,
        uploadsCountLastDay (migrateUploads table) (.v4 (.ofBits ip)) now =
            (ipv4LastDay table ip now).length ∧
          uploadsBytesLastDay (migrateUploads table) (.v4 (.ofBits ip)) now =
            ipv4BytesLastDay table ip now := by
  refine ⟨fun ip => ?_, fun startIp ip endIp => ?_, fun ranges => ?_, fun table ip now => ?_⟩
  · exact ⟨_, mappedBytes_eq ip, rfl, fromDbBytes_toDbBytes_v4 _⟩
  · exact ⟨_, _, mappedBytes_eq startIp, mappedBytes_eq endIp, between_iff startIp ip endIp⟩
  · exact ⟨_, migrateRanges_eq ranges, fun tables => isIpBanned_mapped tables ranges⟩
  · have same := lastDay_migrated table ip now
    have counted := congrArg List.length same
    rw [List.length_map, List.length_map] at counted
    constructor
    · rw [uploadsCountLastDay, counted]
    · rw [uploadsBytesLastDay, ipv4BytesLastDay, sumFileSize_eq, same]

end Filehost.Migrations
