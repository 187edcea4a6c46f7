import Filehost.Blacklist.Scan
import Filehost.Data.Selections
import Filehost.Ip.Cidr

namespace Filehost.Blacklist

open Filehost.Ip Filehost.Data

/-! # Lists of blocks

What the expression finds in a list of blocks between separators, and what the
reader of single blocks makes of the same list. -/

/-- A block of a list: octets of any size, a prefix of any length. -/
structure Token where
  first : Nat
  second : Nat
  third : Nat
  fourth : Nat
  prefixLength : Option (List Char)
  numeral : ∀ digits ∈ prefixLength, digits ≠ [] ∧ ∀ char ∈ digits, char.isDigit = true

def Token.quad (token : Token) : List Char :=
  quadText (Nat.toDigits 10 token.first) (Nat.toDigits 10 token.second)
    (Nat.toDigits 10 token.third) (Nat.toDigits 10 token.fourth)

def Token.text (token : Token) : List Char := token.quad ++ prefixText token.prefixLength

/-- The range `Cidr::parse` gives for a token. -/
def Token.range (token : Token) : Option IpRangeEntry :=
  (Cidr.parse token.text).map fun block => ⟨block.start, block.stop⟩

/-- A body that lists these tokens, with separators between them and anywhere else. -/
inductive Listing (isDigit : Char → Bool) : List Token → List Char → Prop
  | nil : Listing isDigit [] []
  | separator {tokens body char} (separates : Separator isDigit char)
      (listing : Listing isDigit tokens body) : Listing isDigit tokens (char :: body)
  | token {token tokens body} (ends : ∀ char ∈ body.head?, Separator isDigit char)
      (listing : Listing isDigit tokens body) :
      Listing isDigit (token :: tokens) (token.text ++ body)

/-! ## What a token is read as -/

section Reading

variable {a b c d digits : List Char}

def Token.found (token : Token) : Option IpRangeEntry :=
  (capturesOf (Nat.toDigits 10 token.first) (Nat.toDigits 10 token.second)
    (Nat.toDigits 10 token.third) (Nat.toDigits 10 token.fourth) token.prefixLength).bind
    Capture.entry

/-- A body is read token by token. -/
theorem parseBody_listing {isDigit : Char → Bool} {tokens : List Token} {body : List Char}
    (ascii : ∀ char, char.isDigit = true → isDigit char = true) (dot : isDigit '.' = false)
    (slash : isDigit '/' = false) (listing : Listing isDigit tokens body) :
    parseBody isDigit body = tokens.filterMap Token.found := by
  induction listing with
  | nil => rfl
  | separator separates listing ih =>
      rename_i tokens body char
      have noDigits : matchDigits isDigit 3 (char :: body) = none := by
        simp [matchDigits, separates.1]
      have unmatched : matchRange isDigit (char :: body) = none := by
        rw [matchRange, noDigits]
        rfl
      rw [parseBody, capturesFrom_of_none unmatched]
      exact ih
  | token ends listing ih =>
      rename_i token tokens body
      have octet : ∀ number : Nat, Nat.toDigits 10 number ≠ [] ∧
          ∀ char ∈ Nat.toDigits 10 number, isDigit char = true := by
        intro number
        exact ⟨Nat.toDigits_ne_nil, fun char member => ascii char (isDigit_of_mem_toDigits member)⟩
      have quad : Quad isDigit (Nat.toDigits 10 token.first) (Nat.toDigits 10 token.second)
          (Nat.toDigits 10 token.third) (Nat.toDigits 10 token.fourth) :=
        ⟨octet _, octet _, octet _, octet _⟩
      have numeral : ∀ digits ∈ token.prefixLength,
          digits ≠ [] ∧ ∀ char ∈ digits, isDigit char = true := by
        intro digits given
        obtain ⟨nonempty, decimal⟩ := token.numeral digits given
        exact ⟨nonempty, fun char member => ascii char (decimal char member)⟩
      rw [parseBody, Token.text, Token.quad, List.append_assoc,
        capturesFrom_quad dot slash quad numeral ends, List.filterMap_append, List.filterMap_cons,
        ← ih, Token.found]
      cases capturesOf (Nat.toDigits 10 token.first) (Nat.toDigits 10 token.second)
          (Nat.toDigits 10 token.third) (Nat.toDigits 10 token.fourth) token.prefixLength with
      | none => rfl
      | some capture =>
          cases entry : capture.entry <;> simp [entry, parseBody]

/-- The range of a prefix around an address. -/
def blockOf (address : Ipv4Addr) (prefixLength : Nat) : IpRangeEntry :=
  ⟨.v4 (.ofBits (cidrRange address.toBits prefixLength).1),
    .v4 (.ofBits (cidrRange address.toBits prefixLength).2)⟩

def prefixValue (prefixLength : Option (List Char)) : Nat :=
  (prefixLength.map fun digits => Nat.ofDigitChars 10 digits 0).getD 32

/-- What four octets and a prefix say when they are read whole. -/
def blockText (a b c d : List Char) (prefixLength : Option (List Char)) : Option IpRangeEntry :=
  if QuadText a b c d ∧ prefixValue prefixLength ≤ 32 then
    some (blockOf (.new (octetOf a) (octetOf b) (octetOf c) (octetOf d)) (prefixValue prefixLength))
  else none

theorem around_blockOf (address : Ipv4Addr) {prefixLength : Nat} (fits : prefixLength ≤ 32) :
    (Cidr.around (.v4 address) (some prefixLength)).map (fun block => ⟨block.start, block.stop⟩) =
      some (blockOf address prefixLength) := by
  obtain ⟨start, stop, bounds, -, -, startSmall, stopSmall⟩ := cidrBounds_v4 address fits
  have small : toU32 start = some (start.setWidth 32) ∧ toU32 stop = some (stop.setWidth 32) :=
    ⟨if_pos startSmall, if_pos stopSmall⟩
  simp [Cidr.around, blockOf, cidrRange, bounds, small]

/-- A range says how long its prefix was. -/
theorem blockOf_inj {address : Ipv4Addr} {shorter longer : Nat} (short : shorter ≤ 32)
    (long : longer ≤ 32) (same : blockOf address shorter = blockOf address longer) :
    shorter = longer := by
  obtain ⟨start, stop, bounds, first, last, startSmall, stopSmall⟩ := cidrBounds_v4 address short
  obtain ⟨start', stop', bounds', first', last', startSmall', stopSmall'⟩ :=
    cidrBounds_v4 address long
  simp only [blockOf, cidrRange, bounds, bounds', IpRangeEntry.mk.injEq, IpAddr.v4.injEq] at same
  have starts := octetsValue_ofBits_setWidth startSmall
  have stops := octetsValue_ofBits_setWidth stopSmall
  rw [same.1, octetsValue_ofBits_setWidth startSmall', first', first] at starts
  rw [same.2, octetsValue_ofBits_setWidth stopSmall', last', last, Blocks.last, Blocks.last, starts]
    at stops
  have sizes : 2 ^ (32 - longer) = 2 ^ (32 - shorter) := by
    have positive := Nat.two_pow_pos (32 - longer)
    have positive' := Nat.two_pow_pos (32 - shorter)
    omega
  have equal := Nat.pow_right_injective (Nat.le_refl 2) sizes
  omega

theorem parseU8_digits (decimal : ∀ char ∈ digits, char.isDigit = true) (nonempty : digits ≠ []) :
    parseU8 digits =
      if Nat.ofDigitChars 10 digits 0 ≤ 255 then some (Nat.ofDigitChars 10 digits 0) else none := by
  rw [← u8FromStr_digits decimal nonempty]
  exact congrArg parseU8 (dropPlus_digits decimal).symm

theorem cidrRange_full (bits : BitVec 32) : cidrRange bits 32 = (bits, bits) := by
  have masked : bits &&& 4294967295#32 = bits := BitVec.and_allOnes
  simp [cidrRange, cidrBounds, masked]

/-- What is captured is read as a block is. -/
theorem entry_quadText {prefixLength : Option (List Char)}
    (quad : Quad Char.isDigit a b c d)
    (numeral : ∀ digits ∈ prefixLength, digits ≠ [] ∧ ∀ char ∈ digits, char.isDigit = true) :
    Capture.entry ⟨quadText a b c d, prefixLength⟩ = blockText a b c d prefixLength := by
  have read := @readIpv4Addr_quadText _ _ _ _ [] quad.first.2 quad.second.2 quad.third.2
    quad.fourth.2 (by simp)
  rw [List.append_nil] at read
  by_cases valid : QuadText a b c d
  · rw [if_pos valid] at read
    cases prefixLength with
    | none => simp [Capture.entry, read, blockText, valid, prefixValue, blockOf, cidrRange_full]
    | some digits =>
        obtain ⟨nonempty, decimal⟩ := numeral digits rfl
        simp only [Capture.entry, read, parseU8_digits decimal nonempty, blockText, valid,
          prefixValue, Option.map_some, Option.getD_some, true_and]
        by_cases fits : Nat.ofDigitChars 10 digits 0 ≤ 32
        · have small : Nat.ofDigitChars 10 digits 0 ≤ 255 := by omega
          simp [fits, small, Nat.not_lt.mpr fits, blockOf]
        · by_cases small : Nat.ofDigitChars 10 digits 0 ≤ 255
          · simp [fits, small, Nat.not_le.mp fits]
          · simp [fits, small]
  · rw [if_neg valid] at read
    simp [Capture.entry, read, blockText, valid]

theorem inAddress_quadText (quad : Quad Char.isDigit a b c d) :
    ∀ char ∈ quadText a b c d, InAddress char := by
  intro char member
  simp only [quadText, List.mem_append, List.mem_cons] at member
  rcases member with member | rfl | member | rfl | member | rfl | member
  · exact inAddress_of_isDigit (quad.first.2 char member)
  · exact .inr (.inl rfl)
  · exact inAddress_of_isDigit (quad.second.2 char member)
  · exact .inr (.inl rfl)
  · exact inAddress_of_isDigit (quad.third.2 char member)
  · exact .inr (.inl rfl)
  · exact inAddress_of_isDigit (quad.fourth.2 char member)

theorem parse_quadText {prefixLength : Option (List Char)} (quad : Quad Char.isDigit a b c d)
    (numeral : ∀ digits ∈ prefixLength, digits ≠ [] ∧ ∀ char ∈ digits, char.isDigit = true) :
    (Cidr.parse (quadText a b c d ++ prefixText prefixLength)).map
        (fun block => ⟨block.start, block.stop⟩) =
      blockText a b c d prefixLength := by
  have inside := inAddress_quadText quad
  have parsed : Cidr.parse (quadText a b c d ++ prefixText prefixLength) =
      (parseIpAddr (quadText a b c d)).bind fun address =>
        Cidr.around address (prefixLength.map fun digits => Nat.ofDigitChars 10 digits 0) := by
    cases prefixLength with
    | none => rw [prefixText, List.append_nil, Cidr.parse_bare inside, Option.map_none]
    | some digits =>
        obtain ⟨nonempty, decimal⟩ := numeral digits rfl
        rw [prefixText, Cidr.parse_slashed inside decimal nonempty, Option.map_some]
  rw [parsed, parseIpAddr_quadText quad.first.2 quad.second.2 quad.third.2 quad.fourth.2, blockText]
  by_cases valid : QuadText a b c d
  · rw [if_pos valid, Option.bind_some]
    have whole : ∀ address, Cidr.around (.v4 address)
        (prefixLength.map fun digits => Nat.ofDigitChars 10 digits 0) =
          Cidr.around (.v4 address) (some (prefixValue prefixLength)) := by
      intro address
      cases prefixLength with
      | none => exact Cidr.around_none _
      | some digits => rfl
    rw [whole]
    by_cases fits : prefixValue prefixLength ≤ 32
    · rw [around_blockOf _ fits, if_pos ⟨valid, fits⟩]
    · rw [Cidr.around_of_wide (Nat.not_le.mp fits), if_neg fun both => fits both.2]
      rfl
  · rw [if_neg valid, if_neg fun both => valid both.1]
    rfl

theorem ofDigitChars_take (count : Nat) (digits : List Char) :
    Nat.ofDigitChars 10 digits 0 =
      10 ^ (digits.length - count) * Nat.ofDigitChars 10 (digits.take count) 0 +
        Nat.ofDigitChars 10 (digits.drop count) 0 := by
  have split :=
    Nat.ofDigitChars_append (b := 10) (l := digits.take count) (m := digits.drop count) 0
  rw [List.take_append_drop] at split
  rw [split, Nat.ofDigitChars_eq_ofDigitChars_zero, List.length_drop]

theorem ofDigitChars_take_le (count : Nat) (digits : List Char) :
    Nat.ofDigitChars 10 (digits.take count) 0 ≤ Nat.ofDigitChars 10 digits 0 := by
  rw [ofDigitChars_take count digits]
  exact (Nat.le_mul_of_pos_left _ (Nat.pow_pos (by decide))).trans (Nat.le_add_right _ _)

theorem ofDigitChars_take_lt {count : Nat} (dropped : count < digits.length)
    (positive : Nat.ofDigitChars 10 digits 0 ≠ 0) :
    Nat.ofDigitChars 10 (digits.take count) 0 < Nat.ofDigitChars 10 digits 0 := by
  rw [ofDigitChars_take count digits] at positive ⊢
  obtain ⟨more, length⟩ := Nat.exists_eq_add_of_lt dropped
  have power : 10 ^ (digits.length - count) = 10 * 10 ^ more := by
    rw [show digits.length - count = more + 1 by omega, Nat.pow_succ, Nat.mul_comm]
  have atLeast := Nat.le_mul_of_pos_left (Nat.ofDigitChars 10 (digits.take count) 0)
    (Nat.pow_pos (n := more) (show 0 < 10 by decide))
  rw [power, Nat.mul_assoc] at positive ⊢
  omega

/-- Cut to what the expression captures the block is well formed, and the cut went
through the first octet, the last one, or a prefix that is not zero. -/
def Misread (a b c d : List Char) (prefixLength : Option (List Char)) : Prop :=
  (QuadText (lastThree a) b c (d.take 3) ∧ prefixValue (shortPrefix d prefixLength) ≤ 32) ∧
    (3 < a.length ∨ 3 < d.length ∨
      ∃ digits ∈ prefixLength, 2 < digits.length ∧ Nat.ofDigitChars 10 digits 0 ≠ 0)

instance (a b c d : List Char) (prefixLength : Option (List Char)) :
    Decidable (Misread a b c d prefixLength) :=
  inferInstanceAs (Decidable ((_ ∧ _) ∧ (_ ∨ _ ∨ ∃ digits ∈ prefixLength, 2 < digits.length ∧ _)))

theorem prefixValue_take_le (prefixLength : Option (List Char)) :
    prefixValue (prefixLength.map (List.take 2)) ≤ prefixValue prefixLength := by
  cases prefixLength with
  | none => exact Nat.le_refl _
  | some digits => exact ofDigitChars_take_le 2 digits

/-- A block that is read whole is captured, maybe with less of its prefix. -/
theorem captured_of_read {prefixLength : Option (List Char)}
    (read : QuadText a b c d ∧ prefixValue prefixLength ≤ 32) :
    QuadText (lastThree a) b c (d.take 3) ∧ prefixValue (shortPrefix d prefixLength) ≤ 32 := by
  have short : d.length ≤ 3 := read.1.fourth.2.1
  rw [lastThree_of_short read.1.first.2.1, List.take_of_length_le short, shortPrefix, if_pos short]
  exact ⟨read.1, (prefixValue_take_le prefixLength).trans read.2⟩

/-- Of a longer prefix two digits are read, which say less unless all of them are zero. -/
theorem misread_prefix_iff {digits : List Char} {address : Ipv4Addr} (valid : QuadText a b c d)
    (same : address = .new (octetOf a) (octetOf b) (octetOf c) (octetOf d))
    (fits : Nat.ofDigitChars 10 (digits.take 2) 0 ≤ 32) :
    some (blockOf address (Nat.ofDigitChars 10 (digits.take 2) 0)) ≠
        blockText a b c d (some digits) ↔
      2 < digits.length ∧ Nat.ofDigitChars 10 digits 0 ≠ 0 := by
  have read : blockText a b c d (some digits) =
      if Nat.ofDigitChars 10 digits 0 ≤ 32 then
        some (blockOf address (Nat.ofDigitChars 10 digits 0))
      else none := by
    simp only [blockText, valid, prefixValue, Option.map_some, Option.getD_some, true_and, same]
  rw [read]
  by_cases dropped : 2 < digits.length
  · by_cases zero : Nat.ofDigitChars 10 digits 0 = 0
    · have none : Nat.ofDigitChars 10 (digits.take 2) 0 = 0 := by
        have less := ofDigitChars_take_le 2 digits
        omega
      simp [zero, none]
    · have less := ofDigitChars_take_lt dropped zero
      simp only [dropped, ne_eq, zero, not_false_eq_true, and_self, iff_true]
      by_cases whole : Nat.ofDigitChars 10 digits 0 ≤ 32
      · rw [if_pos whole]
        intro equal
        exact less.ne (blockOf_inj fits whole (Option.some.inj equal))
      · rw [if_neg whole]
        exact Option.some_ne_none _
  · have kept : digits.take 2 = digits := List.take_of_length_le (Nat.not_lt.mp dropped)
    rw [kept] at fits ⊢
    simp [fits, dropped]

theorem misread_iff (prefixLength : Option (List Char)) :
    blockText (lastThree a) b c (d.take 3) (shortPrefix d prefixLength) ≠
      blockText a b c d prefixLength ↔ Misread a b c d prefixLength := by
  by_cases captured :
      QuadText (lastThree a) b c (d.take 3) ∧ prefixValue (shortPrefix d prefixLength) ≤ 32
  · have found : blockText (lastThree a) b c (d.take 3) (shortPrefix d prefixLength) =
        some (blockOf (.new (octetOf (lastThree a)) (octetOf b) (octetOf c) (octetOf (d.take 3)))
          (prefixValue (shortPrefix d prefixLength))) := if_pos captured
    rw [Misread, found]
    simp only [captured, and_self, true_and]
    by_cases whole : a.length ≤ 3 ∧ d.length ≤ 3
    · have first : ¬3 < a.length := Nat.not_lt.mpr whole.1
      have fourth : ¬3 < d.length := Nat.not_lt.mpr whole.2
      rw [lastThree_of_short whole.1, List.take_of_length_le whole.2, shortPrefix, if_pos whole.2]
        at captured ⊢
      cases prefixLength with
      | none => simp [blockText, captured, first, fourth, prefixValue]
      | some digits =>
          simp only [first, fourth, Option.mem_some, exists_eq_left', false_or]
          exact misread_prefix_iff captured.1 rfl captured.2
    · -- an octet was cut, so the block itself is refused
      have cut : 3 < a.length ∨ 3 < d.length := by omega
      have refused : blockText a b c d prefixLength = none := by
        apply if_neg
        intro read
        have first := read.1.first.2.1
        have fourth := read.1.fourth.2.1
        omega
      simp only [refused, ne_eq, reduceCtorEq, not_false_eq_true, true_iff]
      rcases cut with cut | cut
      · exact .inl cut
      · exact .inr (.inl cut)
  · have unread : blockText a b c d prefixLength = none :=
      if_neg fun read => captured (captured_of_read read)
    rw [Misread, blockText, if_neg captured, unread]
    simp [captured]

theorem entry_capturesOf {prefixLength : Option (List Char)} (quad : Quad Char.isDigit a b c d)
    (numeral : ∀ digits ∈ prefixLength, digits ≠ [] ∧ ∀ char ∈ digits, char.isDigit = true) :
    (capturesOf a b c d prefixLength).bind Capture.entry =
      blockText (lastThree a) b c (d.take 3) (shortPrefix d prefixLength) := by
  obtain ⟨firstNonempty, firstDecimal⟩ := quad.first
  obtain ⟨fourthNonempty, fourthDecimal⟩ := quad.fourth
  have cut : Quad Char.isDigit (lastThree a) b c (d.take 3) := by
    refine ⟨⟨?_, fun char member => firstDecimal char (List.mem_of_mem_drop member)⟩, quad.second,
      quad.third, ⟨by simpa using fourthNonempty,
        fun char member => fourthDecimal char (List.mem_of_mem_take member)⟩⟩
    have positive := List.length_pos_iff.mpr firstNonempty
    rw [lastThree, ne_eq, List.drop_eq_nil_iff]
    omega
  have shortNumeral : ∀ digits ∈ shortPrefix d prefixLength,
      digits ≠ [] ∧ ∀ char ∈ digits, char.isDigit = true := by
    intro digits taken
    simp only [shortPrefix, Option.mem_def] at taken
    split at taken
    · obtain ⟨whole, given, rfl⟩ := Option.map_eq_some_iff.mp taken
      obtain ⟨nonempty, decimal⟩ := numeral whole given
      exact ⟨by simpa using nonempty, fun char member => decimal char (List.mem_of_mem_take member)⟩
    · contradiction
  by_cases short : b.length ≤ 3 ∧ c.length ≤ 3
  · rw [capturesOf, if_pos short]
    exact entry_quadText cut shortNumeral
  · have refused : ¬QuadText (lastThree a) b c (d.take 3) :=
      fun read => short ⟨read.second.2.1, read.third.2.1⟩
    rw [capturesOf, if_neg short, blockText, if_neg fun read => refused read.1]
    rfl

end Reading

def Token.Misread (token : Token) : Prop :=
  Blacklist.Misread (Nat.toDigits 10 token.first) (Nat.toDigits 10 token.second)
    (Nat.toDigits 10 token.third) (Nat.toDigits 10 token.fourth) token.prefixLength

instance (token : Token) : Decidable token.Misread :=
  inferInstanceAs (Decidable (Blacklist.Misread _ _ _ _ _))

theorem Token.quad_decimal (token : Token) :
    Quad Char.isDigit (Nat.toDigits 10 token.first) (Nat.toDigits 10 token.second)
      (Nat.toDigits 10 token.third) (Nat.toDigits 10 token.fourth) := by
  have octet : ∀ number : Nat, Nat.toDigits 10 number ≠ [] ∧
      ∀ char ∈ Nat.toDigits 10 number, char.isDigit = true :=
    fun _ => ⟨Nat.toDigits_ne_nil, fun _ => isDigit_of_mem_toDigits⟩
  exact ⟨octet _, octet _, octet _, octet _⟩

theorem Token.found_eq_range_iff (token : Token) : token.found = token.range ↔ ¬token.Misread := by
  rw [found, range, text, Token.quad, entry_capturesOf token.quad_decimal token.numeral,
    parse_quadText token.quad_decimal token.numeral, Token.Misread, ← misread_iff, not_not]

theorem Token.found_of_range (token : Token) (read : token.range ≠ none) : token.found ≠ none := by
  rw [range, text, Token.quad, parse_quadText token.quad_decimal token.numeral, blockText] at read
  rw [found, entry_capturesOf token.quad_decimal token.numeral, blockText,
    if_pos (captured_of_read (not_not.mp fun refused => read (if_neg refused)))]
  exact Option.some_ne_none _

/-- A list is read as its blocks are read one by one, unless one of them is cut by
the bounds of the expression to a block that is well formed. -/
theorem parseBody_agrees_iff {isDigit : Char → Bool}
    (ascii : ∀ char, char.isDigit = true → isDigit char = true) (dot : isDigit '.' = false)
    (slash : isDigit '/' = false) {tokens : List Token} {body : List Char}
    (listing : Listing isDigit tokens body) :
    parseBody isDigit body = tokens.filterMap Token.range ↔ ∀ token ∈ tokens, ¬token.Misread := by
  rw [parseBody_listing ascii dot slash listing,
    Selections.filterMap_eq_iff fun token _ => token.found_of_range]
  exact forall₂_congr fun token _ => token.found_eq_range_iff

theorem numeral_of_all {digits : List Char} (nonempty : digits ≠ [])
    (decimal : digits.all Char.isDigit = true) :
    ∀ written ∈ some digits, written ≠ [] ∧ ∀ char ∈ written, char.isDigit = true := by
  rintro written ⟨rfl⟩
  exact ⟨nonempty, List.all_eq_true.mp decimal⟩

def network : Token :=
  ⟨10, 0, 0, 0, some "24".toList, numeral_of_all (by decide) (by decide)⟩

def unreadable : Token := ⟨999, 0, 0, 1, none, by simp⟩

theorem parseBody_agrees_iff_network :
    parseBody Char.isDigit (network.text ++ '\n' :: (unreadable.text ++ ['\n'])) =
      [network, unreadable].filterMap Token.range := by
  have newline : ∀ rest, ∀ char ∈ ('\n' :: rest).head?, Separator Char.isDigit char := by
    intro rest char first
    cases first
    decide
  have listing : Listing Char.isDigit [network, unreadable]
      (network.text ++ '\n' :: (unreadable.text ++ ['\n'])) :=
    .token (newline _) (.separator (by decide) (.token (newline _) (.separator (by decide) .nil)))
  exact (parseBody_agrees_iff (fun _ => id) rfl rfl listing).mpr (by decide)

def overWide : Token := ⟨10, 0, 0, 0, some "240".toList, numeral_of_all (by decide) (by decide)⟩

/-- Two digits of a prefix of three make a block. -/
theorem parseBody_overWide :
    Listing Char.isDigit [overWide] "10.0.0.0/240".toList ∧
      parseBody Char.isDigit "10.0.0.0/240".toList =
        [⟨.v4 (.new 10 0 0 0), .v4 (.new 10 0 0 255)⟩] ∧
      [overWide].filterMap Token.range = [] := by
  refine ⟨.token (by simp) .nil, by decide +kernel, by decide +kernel⟩

end Filehost.Blacklist
