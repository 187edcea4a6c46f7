import Filehost.Admin.BanHandlers
import Filehost.Data.TextSlices
import Filehost.Store.Location

namespace Filehost.Util

open Filehost.Data.TextSlices Filehost.Store

/-! # Hexadecimal texts

Two bytes of the text are sliced off at a time and handed to the parser of
integers. -/

/-- The digits of `u8::from_str_radix(.., 16)`, which may not pass 255. -/
def readDigits (value : Nat) : List Char → Option UInt8
  | [] => some (UInt8.ofNat value)
  | char :: rest =>
      (Admin.hexDigit char).bind fun digit =>
        if 255 < 16 * value + digit then none else readDigits (16 * value + digit) rest

/-- `u8::from_str_radix(.., 16)`.  A plus may lead. -/
def fromStrRadix : List Char → Option UInt8
  | [] | ['+'] | ['-'] => none
  | '+' :: digits => readDigits 0 digits
  | digits => readDigits 0 digits

/-- `(0..len).step_by(2)` for an even length. -/
def pairStarts (length : Nat) : List Nat := List.range' 0 (length / 2) 2

section Decoding

variable {M : Type → Type} [Monad M]

/-- Collecting stops at the first value that is missing, whatever else a read does. -/
def collect (read : Nat → M (Option UInt8)) : List Nat → M (Option (List UInt8))
  | [] => pure (some [])
  | start :: rest => do
      match ← read start with
      | none => pure none
      | some byte => return (← collect read rest).map (byte :: ·)

/-- The decoder, given how it slices its text. -/
def hexDecodeBy (get : Nat → Nat → M (Option (List Char))) (text : List Char) :
    M (Option (List UInt8)) :=
  if byteLength text % 2 ≠ 0 then pure none
  else
    collect (fun start => (Option.bind · fromStrRadix) <$> get start (start + 2))
      (pairStarts (byteLength text))

end Decoding

/-- `get` answers `None` where an index would panic. -/
def hexDecode (text : List Char) : Option (List UInt8) := @hexDecodeBy Id _ (slice text) text

theorem collect_id (value : Nat → Option UInt8) (starts : List Nat) :
    @collect Id _ value starts = starts.mapM value := by
  induction starts with
  | nil => rfl
  | cons start rest ih =>
      rw [List.mapM_cons, ← ih]
      change (match value start with
        | none => none
        | some byte => (@collect Id _ value rest).map (byte :: ·)) = _
      cases value start with
      | none => rfl
      | some byte => cases tail : @collect Id _ value rest <;> rfl

theorem hexDecode_eq_mapM (text : List Char) : hexDecode text =
    if byteLength text % 2 ≠ 0 then none
    else (pairStarts (byteLength text)).mapM fun start =>
      (slice text start (start + 2)).bind fromStrRadix := by
  unfold hexDecode hexDecodeBy
  split
  · rfl
  · exact collect_id _ _

/-! ## Pairs of characters -/

theorem pairStarts_succ (length : Nat) :
    pairStarts (2 + length) = 0 :: (pairStarts length).map (2 + ·) := by
  have half : (2 + length) / 2 = length / 2 + 1 := by omega
  rw [pairStarts, half, List.range'_succ, pairStarts, List.map_add_range']

theorem slice_past_pair {first second : Char} (firstSize : first.utf8Size = 1)
    (secondSize : second.utf8Size = 1) (rest : List Char) (start : Nat) :
    slice (first :: second :: rest) (2 + start) (2 + start + 2) = slice rest start (start + 2) := by
  have outer := slice_past first (second :: rest) (1 + start) (1 + (start + 2))
  have inner := slice_past second rest start (start + 2)
  rw [firstSize] at outer
  rw [secondSize] at inner
  rw [← inner, ← outer]
  congr 1 <;> omega

/-! ## Digits -/

def hexDigits : List Char := "0123456789abcdefABCDEF".toList

theorem mem_of_range {first last char : Char} {letters : List Char}
    (listed : ∀ code < last.toNat + 1, first.toNat ≤ code → Char.ofNat code ∈ letters)
    (lower : first ≤ char) (upper : char ≤ last) : char ∈ letters := by
  have member := listed char.toNat (Nat.lt_succ_of_le upper) lower
  rwa [Char.ofNat_toNat] at member

theorem mem_hexDigits {char : Char} {digit : Nat} (read : Admin.hexDigit char = some digit) :
    char ∈ hexDigits := by
  unfold Admin.hexDigit at read
  split at read
  · rename_i range
    exact mem_of_range (by decide) range.1 range.2
  · split at read
    · rename_i range
      exact mem_of_range (by decide) range.1 range.2
    · split at read
      · rename_i range
        exact mem_of_range (by decide) range.1 range.2
      · contradiction

theorem hexDigits_read {char : Char} (member : char ∈ hexDigits) :
    ∃ digit < 16, Admin.hexDigit char = some digit ∧ Nat.digitChar digit = char.toLower := by
  have all : hexDigits.all (fun char => (Admin.hexDigit char).any fun digit =>
      digit < 16 && Nat.digitChar digit = char.toLower) = true := by decide
  have read := List.all_eq_true.mp all char member
  cases found : Admin.hexDigit char with
  | none => simp [found] at read
  | some digit =>
      rw [found] at read
      simp only [Option.any_some, Bool.and_eq_true, decide_eq_true_eq] at read
      exact ⟨digit, read.1, rfl, read.2⟩

theorem hexDigits_plain {char : Char} (member : char ∈ hexDigits) :
    char.utf8Size = 1 ∧ char ≠ '+' := by
  have all : hexDigits.all (fun char => char.utf8Size = 1 && char ≠ '+') = true := by decide
  have plain := List.all_eq_true.mp all char member
  simpa using plain

theorem hexDigit_of_wide {char : Char} (wide : 1 < char.utf8Size) : Admin.hexDigit char = none := by
  cases read : Admin.hexDigit char with
  | none => rfl
  | some digit =>
      have narrow := (hexDigits_plain (mem_hexDigits read)).1
      omega

theorem readDigits_cons {value : Nat} (small : value < 16) (char : Char) (rest : List Char) :
    readDigits value (char :: rest) =
      (Admin.hexDigit char).bind fun digit => readDigits (16 * value + digit) rest := by
  rw [readDigits]
  cases read : Admin.hexDigit char with
  | none => rfl
  | some digit =>
      obtain ⟨_, bound, found, -⟩ := hexDigits_read (mem_hexDigits read)
      cases read.symm.trans found
      have fits : ¬255 < 16 * value + digit := by omega
      rw [Option.bind_some, Option.bind_some, if_neg fits]

theorem fromStrRadix_pair (first second : Char) :
    fromStrRadix [first, second] = Admin.hexPair first second := by
  by_cases signed : first = '+'
  · subst signed
    have unsigned : fromStrRadix ['+', second] = readDigits 0 [second] := rfl
    rw [unsigned, readDigits_cons (by decide)]
    cases read : Admin.hexDigit second <;> simp [Admin.hexPair, readDigits, read]
  · have unsigned : fromStrRadix [first, second] = readDigits 0 [first, second] := by
      simp [fromStrRadix, signed]
    rw [unsigned, readDigits_cons (by decide)]
    cases high : Admin.hexDigit first with
    | none => cases low : Admin.hexDigit second <;> simp [Admin.hexPair, signed, high, low]
    | some digit =>
        obtain ⟨_, bound, found, -⟩ := hexDigits_read (mem_hexDigits high)
        cases high.symm.trans found
        rw [Option.bind_some, readDigits_cons (by omega)]
        cases low : Admin.hexDigit second <;>
          simp [Admin.hexPair, signed, high, low, readDigits]

theorem hexPair_of_wide {first second : Char}
    (wide : 1 < first.utf8Size ∨ 1 < second.utf8Size) : Admin.hexPair first second = none := by
  rcases wide with firstWide | secondWide
  · have unsigned : first ≠ '+' := by
      rintro rfl
      exact absurd firstWide (by decide)
    cases low : Admin.hexDigit second <;>
      simp [Admin.hexPair, unsigned, low, hexDigit_of_wide firstWide]
  · simp [Admin.hexPair, hexDigit_of_wide secondWide]

theorem fromStrRadix_of_wide {char : Char} (wide : 1 < char.utf8Size) :
    fromStrRadix [char] = none := by
  unfold fromStrRadix
  split
  · rfl
  · rfl
  · rfl
  · rename_i same
    cases same
    contradiction
  · rw [readDigits_cons (by decide), hexDigit_of_wide wide]
    rfl

/-! ## Pairs of characters -/

theorem hexDecode_pair {first second : Char} (firstSize : first.utf8Size = 1)
    (secondSize : second.utf8Size = 1) (rest : List Char) :
    hexDecode (first :: second :: rest) =
      (fromStrRadix [first, second]).bind fun byte => (hexDecode rest).map (byte :: ·) := by
  have length : byteLength (first :: second :: rest) = 2 + byteLength rest := by
    rw [byteLength_cons, byteLength_cons, firstSize, secondSize]
    omega
  rw [hexDecode_eq_mapM, hexDecode_eq_mapM, length, Nat.add_mod_left]
  by_cases odd : byteLength rest % 2 ≠ 0
  · simp [odd]
  · rw [if_neg odd, if_neg odd, pairStarts_succ, List.mapM_cons, List.mapM_map]
    have shifted : (fun start => (slice (first :: second :: rest) start (start + 2)).bind
        fromStrRadix) ∘ (2 + ·) = fun start => (slice rest start (start + 2)).bind fromStrRadix := by
      funext start
      exact congrArg (Option.bind · fromStrRadix) (slice_past_pair firstSize secondSize rest start)
    rw [shifted, Nat.zero_add, slice_two firstSize secondSize, Option.bind_some]
    cases fromStrRadix [first, second] with
    | none => rfl
    | some byte => exact Option.map_eq_bind.symm

theorem hexDecode_of_unread {text : List Char} (long : 2 ≤ byteLength text)
    (unread : ∀ piece, slice text 0 2 = some piece → fromStrRadix piece = none) :
    hexDecode text = none := by
  obtain ⟨rest, length⟩ : ∃ rest, byteLength text = 2 + rest := Nat.exists_eq_add_of_le long
  have first : (slice text 0 2).bind fromStrRadix = none := Option.bind_eq_none_iff.mpr unread
  rw [hexDecode_eq_mapM]
  split
  · rfl
  · rw [length, pairStarts_succ, List.mapM_cons]
    simp [first]

theorem hexDecode_of_wide {first : Char} (wide : 1 < first.utf8Size) (rest : List Char) :
    hexDecode (first :: rest) = none := by
  refine hexDecode_of_unread ?_ ?_
  · rw [byteLength_cons]
    omega
  · intro piece found
    rw [slice_wide wide found]
    exact fromStrRadix_of_wide wide

/-- The slices are pairs of characters. -/
theorem hexDecode_eq_pairs (text : List Char) : hexDecode text = Admin.hexDecode text := by
  induction text using Admin.hexDecode.induct with
  | case1 => rfl
  | case2 char =>
      by_cases wide : 1 < char.utf8Size
      · exact hexDecode_of_wide wide []
      · have positive := char.utf8Size_pos
        have narrow : char.utf8Size = 1 := by omega
        simp [hexDecode_eq_mapM, narrow, Admin.hexDecode]
  | case3 first second rest ih =>
      rw [Admin.hexDecode, ← ih]
      have firstPositive := first.utf8Size_pos
      have secondPositive := second.utf8Size_pos
      by_cases firstWide : 1 < first.utf8Size
      · rw [hexDecode_of_wide firstWide, hexPair_of_wide (.inl firstWide)]
        rfl
      · have firstSize : first.utf8Size = 1 := by omega
        by_cases secondWide : 1 < second.utf8Size
        · rw [hexPair_of_wide (.inr secondWide)]
          refine hexDecode_of_unread ?_ fun piece found => ?_
          · rw [byteLength_cons, byteLength_cons]
            omega
          · rw [slice_cut firstSize secondWide] at found
            contradiction
        · have secondSize : second.utf8Size = 1 := by omega
          rw [hexDecode_pair firstSize secondSize, fromStrRadix_pair]
          cases Admin.hexPair first second <;> cases hexDecode rest <;> rfl

/-! ## What is accepted -/

def AcceptedPair (first second : Char) : Prop :=
  (first = '+' ∨ first ∈ hexDigits) ∧ second ∈ hexDigits

def InPairs (accepts : Char → Char → Prop) : List Char → Prop
  | [] => True
  | [_] => False
  | first :: second :: rest => accepts first second ∧ InPairs accepts rest

/-- The digit a character is read as: a sign adds nothing to the second digit. -/
def spelled (char : Char) : Char := if char = '+' then '0' else char.toLower

theorem spelled_of_digit {char : Char} (member : char ∈ hexDigits) : spelled char = char.toLower :=
  if_neg (hexDigits_plain member).2

theorem accepted_of_hexPair {first second : Char} {byte : UInt8}
    (read : Admin.hexPair first second = some byte) : AcceptedPair first second := by
  cases low : Admin.hexDigit second with
  | none => simp [Admin.hexPair, low] at read
  | some lowDigit =>
      refine ⟨?_, mem_hexDigits low⟩
      by_cases signed : first = '+'
      · exact .inl signed
      · cases high : Admin.hexDigit first with
        | none => simp [Admin.hexPair, low, signed, high] at read
        | some highDigit => exact .inr (mem_hexDigits high)

theorem hexPair_of_accepted {first second : Char} (accepted : AcceptedPair first second) :
    ∃ high < 16, ∃ low < 16, Admin.hexPair first second = some (UInt8.ofNat (16 * high + low)) ∧
      Nat.digitChar high = spelled first ∧ Nat.digitChar low = spelled second := by
  obtain ⟨leads, member⟩ := accepted
  obtain ⟨low, lowBound, lowRead, lowSpelled⟩ := hexDigits_read member
  rw [← spelled_of_digit member] at lowSpelled
  rcases leads with rfl | leads
  · refine ⟨0, by decide, low, lowBound, ?_, rfl, lowSpelled⟩
    simp [Admin.hexPair, lowRead]
  · obtain ⟨high, highBound, highRead, highSpelled⟩ := hexDigits_read leads
    rw [← spelled_of_digit leads] at highSpelled
    refine ⟨high, highBound, low, lowBound, ?_, highSpelled, lowSpelled⟩
    simp [Admin.hexPair, lowRead, highRead, (hexDigits_plain leads).2]

theorem hexPair_eq_some_iff {first second : Char} {byte : UInt8} :
    Admin.hexPair first second = some byte ↔ AcceptedPair first second ∧
      Nat.digitChar (byte.toNat / 16) = spelled first ∧
      Nat.digitChar (byte.toNat % 16) = spelled second := by
  have bound := byte.toNat_lt
  constructor
  · intro read
    have accepted := accepted_of_hexPair read
    obtain ⟨high, highBound, low, lowBound, found, highSpelled, lowSpelled⟩ :=
      hexPair_of_accepted accepted
    rw [read, Option.some.injEq] at found
    have value : byte.toNat = 16 * high + low := by
      rw [found, UInt8.toNat_ofNat']
      omega
    have quotient : byte.toNat / 16 = high := by omega
    have remainder : byte.toNat % 16 = low := by omega
    rw [quotient, remainder]
    exact ⟨accepted, highSpelled, lowSpelled⟩
  · intro spells
    obtain ⟨accepted, highSame, lowSame⟩ := spells
    obtain ⟨high, highBound, low, lowBound, found, highSpelled, lowSpelled⟩ :=
      hexPair_of_accepted accepted
    have quotient : byte.toNat / 16 = high :=
      digitChar_injOn _ (by omega) _ highBound (highSame.trans highSpelled.symm)
    have remainder : byte.toNat % 16 = low :=
      digitChar_injOn _ (by omega) _ lowBound (lowSame.trans lowSpelled.symm)
    have value : 16 * high + low = byte.toNat := by omega
    rw [found, value, UInt8.ofNat_toNat]

theorem hexEncode_cons (byte : UInt8) (rest : List UInt8) :
    hexEncode (byte :: rest) =
      Nat.digitChar (byte.toNat / 16) :: Nat.digitChar (byte.toNat % 16) :: hexEncode rest := rfl

/-- What is read is written back as the text was spelled. -/
theorem hexDecode_eq_some_iff {text : List Char} {bytes : List UInt8} :
    hexDecode text = some bytes ↔ InPairs AcceptedPair text ∧ hexEncode bytes = text.map spelled := by
  rw [hexDecode_eq_pairs]
  induction text using Admin.hexDecode.induct generalizing bytes with
  | case1 =>
      cases bytes with
      | nil => exact iff_of_true rfl ⟨trivial, rfl⟩
      | cons byte rest => simp [Admin.hexDecode, hexEncode_cons]
  | case2 char => simp [Admin.hexDecode, InPairs]
  | case3 first second rest ih =>
      cases bytes with
      | nil =>
          refine iff_of_false ?_ ?_
          · cases found : Admin.hexPair first second <;> cases tail : Admin.hexDecode rest <;>
              simp [Admin.hexDecode, found, tail]
          · simp [hexEncode]
      | cons byte others =>
          have decoded : Admin.hexDecode (first :: second :: rest) = some (byte :: others) ↔
              Admin.hexPair first second = some byte ∧ Admin.hexDecode rest = some others := by
            cases found : Admin.hexPair first second <;> cases tail : Admin.hexDecode rest <;>
              simp [Admin.hexDecode, found, tail]
          rw [decoded, hexPair_eq_some_iff, ih, hexEncode_cons, InPairs, List.map_cons,
            List.map_cons, List.cons.injEq, List.cons.injEq]
          tauto

theorem exists_hexDecode {text : List Char} (accepted : InPairs AcceptedPair text) :
    ∃ bytes, hexDecode text = some bytes := by
  rw [hexDecode_eq_pairs]
  induction text using Admin.hexDecode.induct with
  | case1 => exact ⟨[], rfl⟩
  | case2 char => exact accepted.elim
  | case3 first second rest ih =>
      obtain ⟨high, -, low, -, found, -⟩ := hexPair_of_accepted accepted.1
      obtain ⟨bytes, tail⟩ := ih accepted.2
      exact ⟨_ :: bytes, by rw [Admin.hexDecode, found, tail]; rfl⟩

theorem inPairs_iff_of_unsigned {text : List Char} (unsigned : '+' ∉ text) :
    InPairs AcceptedPair text ↔ text.length % 2 = 0 ∧ ∀ char ∈ text, char ∈ hexDigits := by
  induction text using Admin.hexDecode.induct with
  | case1 => simp [InPairs]
  | case2 char => simp [InPairs]
  | case3 first second rest ih =>
      simp only [List.mem_cons, not_or] at unsigned
      rw [InPairs, ih unsigned.2.2, AcceptedPair, List.length_cons, List.length_cons,
        Nat.add_assoc, Nat.add_mod_right, List.forall_mem_cons, List.forall_mem_cons]
      have leads : ¬first = '+' := fun same => unsigned.1 same.symm
      tauto

/-- The text as it is claimed to be read: hexadecimal digits in an even number. -/
def HexExact (text : List Char) : Prop :=
  ∀ bytes, hexDecode text = some bytes ↔
    byteLength text % 2 = 0 ∧ (∀ char ∈ text, char ∈ hexDigits) ∧
      hexEncode bytes = text.map Char.toLower

/-- Digits in pairs, some of the first ones replaced by a plus. -/
def Signed (text : List Char) : Prop := '+' ∈ text ∧ InPairs AcceptedPair text

theorem map_spelled {text : List Char} (unsigned : '+' ∉ text) :
    text.map spelled = text.map Char.toLower :=
  List.map_congr_left fun char member => if_neg fun plus : char = '+' => unsigned (plus ▸ member)

theorem byteLength_of_digits {text : List Char} (digits : ∀ char ∈ text, char ∈ hexDigits) :
    byteLength text = text.length := by
  refine byteLength_of_isAscii (List.all_eq_true.mpr fun char member => ?_)
  simpa using (hexDigits_plain (digits char member)).1

theorem hexExact_iff (text : List Char) : HexExact text ↔ ¬Signed text := by
  by_cases plus : '+' ∈ text
  · have notDigits : ¬∀ char ∈ text, char ∈ hexDigits := fun digits =>
      (hexDigits_plain (digits '+' plus)).2 rfl
    constructor
    · intro exact signed
      obtain ⟨bytes, decoded⟩ := exists_hexDecode signed.2
      exact notDigits ((exact bytes).mp decoded).2.1
    · intro unsigned bytes
      refine iff_of_false (fun decoded => ?_) fun hex => notDigits hex.2.1
      exact unsigned ⟨plus, (hexDecode_eq_some_iff.mp decoded).1⟩
  · refine iff_of_true (fun bytes => ?_) fun signed => plus signed.1
    rw [hexDecode_eq_some_iff, inPairs_iff_of_unsigned plus, map_spelled plus, and_assoc]
    constructor
    · rintro ⟨even, digits, written⟩
      exact ⟨by rw [byteLength_of_digits digits]; exact even, digits, written⟩
    · rintro ⟨even, digits, written⟩
      exact ⟨by rw [← byteLength_of_digits digits]; exact even, digits, written⟩

theorem digitChar_hex {digit : Nat} (bound : digit < 16) :
    Nat.digitChar digit ∈ hexDigits ∧ spelled (Nat.digitChar digit) = Nat.digitChar digit := by
  have all : ∀ digit < 16, Nat.digitChar digit ∈ hexDigits ∧
      spelled (Nat.digitChar digit) = Nat.digitChar digit := by decide
  exact all digit bound

theorem hexDecode_hexEncode (bytes : List UInt8) : hexDecode (hexEncode bytes) = some bytes := by
  rw [hexDecode_eq_some_iff]
  induction bytes with
  | nil => exact ⟨trivial, rfl⟩
  | cons byte rest ih =>
      have bound := byte.toNat_lt
      have highBound : byte.toNat / 16 < 16 := by omega
      have lowBound : byte.toNat % 16 < 16 := by omega
      obtain ⟨high, highSpelled⟩ := digitChar_hex highBound
      obtain ⟨low, lowSpelled⟩ := digitChar_hex lowBound
      rw [hexEncode_cons, List.map_cons, List.map_cons, highSpelled, lowSpelled, ← ih.2]
      exact ⟨⟨⟨.inr high, low⟩, ih.1⟩, rfl⟩

theorem char_of_accepted {text : List Char} (accepted : InPairs AcceptedPair text) {char : Char}
    (member : char ∈ text) : char = '+' ∨ char ∈ hexDigits := by
  induction text using Admin.hexDecode.induct with
  | case1 => contradiction
  | case2 single => exact accepted.elim
  | case3 first second rest ih =>
      rcases List.mem_cons.mp member with rfl | member
      · exact accepted.1.1
      · rcases List.mem_cons.mp member with rfl | member
        · exact .inr accepted.1.2
        · exact ih accepted.2 member

theorem eq_plus_of_toLower {char : Char} (known : char = '+' ∨ char ∈ hexDigits)
    (lowered : char.toLower = '+') : char = '+' := by
  rcases known with plus | member
  · exact plus
  · have all : hexDigits.all (fun char => char.toLower ≠ '+') = true := by decide
    have other := List.all_eq_true.mp all char member
    exact absurd lowered (by simpa using other)

theorem plus_of_same_case {left right : List Char} (accepted : InPairs AcceptedPair right)
    (same : left.map Char.toLower = right.map Char.toLower) {place : Nat}
    (plus : left[place]? = some '+') : right[place]? = some '+' := by
  have lowered : (right[place]?).map Char.toLower = some '+' := by
    rw [← List.getElem?_map, ← same, List.getElem?_map, plus]
    rfl
  obtain ⟨char, found, plusLowered⟩ := Option.map_eq_some_iff.mp lowered
  have known := char_of_accepted accepted (List.mem_of_getElem? found)
  rw [found, eq_plus_of_toLower known plusLowered]

/-- Two spellings of one hash differ in case only, unless their signs stand in different
places. -/
theorem map_toLower_eq_iff {left right : List Char} {bytes : List UInt8}
    (leftDecoded : hexDecode left = some bytes) (rightDecoded : hexDecode right = some bytes) :
    left.map Char.toLower = right.map Char.toLower ↔
      ∀ place : Nat, left[place]? = some '+' ↔ right[place]? = some '+' := by
  obtain ⟨leftAccepted, leftSpelled⟩ := hexDecode_eq_some_iff.mp leftDecoded
  obtain ⟨rightAccepted, rightSpelled⟩ := hexDecode_eq_some_iff.mp rightDecoded
  constructor
  · intro same place
    exact ⟨plus_of_same_case rightAccepted same, plus_of_same_case leftAccepted same.symm⟩
  · intro signs
    refine List.ext_getElem? fun place => ?_
    have spelledSame : (left[place]?).map spelled = (right[place]?).map spelled := by
      rw [← List.getElem?_map, ← List.getElem?_map, ← leftSpelled, rightSpelled]
    have placed := signs place
    rw [List.getElem?_map, List.getElem?_map]
    generalize left[place]? = leftChar at spelledSame placed ⊢
    generalize right[place]? = rightChar at spelledSame placed ⊢
    cases leftChar with
    | none => cases rightChar with
      | none => rfl
      | some char => contradiction
    | some char => cases rightChar with
      | none => contradiction
      | some other =>
          simp only [Option.map_some, Option.some.injEq] at spelledSame placed ⊢
          by_cases plus : char = '+'
          · rw [plus, placed.mp plus]
          · have otherPlain : ¬other = '+' := fun same => plus (placed.mpr same)
            rwa [spelled, if_neg plus, spelled, if_neg otherPlain] at spelledSame

/-- Hexadecimal texts are accepted, and nothing else but texts with a plus for the first
digit of a pair.  What is written is read back, and the spellings of one hash differ in
case and signs. -/
theorem hexDecode_exact_iff (text other : List Char) (bytes : List UInt8) :
    (HexExact text ↔ ¬Signed text) ∧
      hexDecode (hexEncode bytes) = some bytes ∧
      (hexDecode text = some bytes → hexDecode other = some bytes →
        (text.map Char.toLower = other.map Char.toLower ↔
          ∀ place : Nat, text[place]? = some '+' ↔ other[place]? = some '+')) :=
  ⟨hexExact_iff text, hexDecode_hexEncode bytes, map_toLower_eq_iff⟩

theorem hexDecode_exact_iff_case :
    "aB".toList.map Char.toLower = "Ab".toList.map Char.toLower := by
  have left : hexDecode "aB".toList = some [0xab] := by decide
  have right : hexDecode "Ab".toList = some [0xab] := by decide
  refine ((hexDecode_exact_iff _ _ _).2.2 left right).mpr fun place => ?_
  match place with
  | 0 => decide
  | 1 => decide
  | _ + 2 => exact Iff.rfl

/-- A plus is taken for a digit, in the text of a hash too. -/
theorem signed_hash_accepted :
    hexDecode (List.replicate 32 "+f".toList).flatten = some (List.replicate 32 0x0f) ∧
      ¬HexExact (List.replicate 32 "+f".toList).flatten := by
  have read : hexDecode (List.replicate 32 "+f".toList).flatten = some (List.replicate 32 0x0f) := by
    rw [hexDecode_eq_pairs]
    decide
  refine ⟨read, fun exact => ?_⟩
  have plus : '+' ∈ hexDigits := ((exact _).mp read).2.1 '+' (by decide)
  exact absurd plus (by decide)

end Filehost.Util
