import Filehost.Ip.Text
import Mathlib.Data.List.TakeWhile

namespace Filehost.Ip

/-! # How addresses are written

What the readers make of a text that is a number, a dotted quad, or groups between
colons. -/

theorem takeWhile_of_ending {p : Char → Bool} {piece rest : List Char}
    (inside : ∀ char ∈ piece, p char = true) (outside : ∀ char ∈ rest.head?, p char = false) :
    (piece ++ rest).takeWhile p = piece := by
  rw [List.takeWhile_append_of_pos inside]
  cases rest with
  | nil => simp
  | cons char rest => simp [outside char rfl]

/-! ## Decimal numbers -/

theorem isDigit_iff (char : Char) : char.isDigit = true ↔ '0' ≤ char ∧ char ≤ '9' := by
  rw [Char.isDigit, Bool.and_eq_true, decide_eq_true_eq, decide_eq_true_eq]
  rfl

theorem toDigit_of_isDigit {radix : Nat} {char : Char} (large : 10 ≤ radix)
    (digit : char.isDigit = true) : toDigit radix char = some (char.toNat - '0'.toNat) := by
  have bounds := (isDigit_iff char).mp digit
  have low : char.toNat ≤ 57 := bounds.2
  have small : char.toNat - '0'.toNat < radix := by
    have zero : '0'.toNat = 48 := rfl
    omega
  simp only [toDigit, bounds, and_self, ↓reduceIte, small]

theorem toDigit_ten_of_not_isDigit {char : Char} (other : char.isDigit = false) :
    toDigit 10 char = none := by
  have bounds : ¬('0' ≤ char ∧ char ≤ '9') := by
    intro inside
    rw [(isDigit_iff char).mpr inside] at other
    contradiction
  apply if_neg
  rw [if_neg bounds]
  split
  · omega
  · split <;> omega

@[simp]
theorem toDigit_ten_isSome (char : Char) : (toDigit 10 char).isSome = char.isDigit := by
  cases digit : char.isDigit with
  | true => rw [toDigit_of_isDigit (by decide) digit]; rfl
  | false => rw [toDigit_ten_of_not_isDigit digit]; rfl

/-- Ten times the digits before, plus the digit. -/
theorem foldl_toDigit_ten {digits : List Char} (decimal : ∀ char ∈ digits, char.isDigit = true)
    (before : Nat) :
    digits.foldl (fun result char => result * 10 + (toDigit 10 char).getD 0) before =
      Nat.ofDigitChars 10 digits before := by
  induction digits generalizing before with
  | nil => rfl
  | cons char digits ih =>
      have digit : toDigit 10 char = some (char.toNat - '0'.toNat) :=
        toDigit_of_isDigit (by decide) (decimal char (by simp))
      rw [List.foldl_cons, Nat.ofDigitChars_cons, digit, Nat.mul_comm, Option.getD_some]
      exact ih (fun other member => decimal other (by simp [member])) _

/-- Digits that are read as one octet: at most three, no zero in front, no more
than 255. -/
def OctetText (digits : List Char) : Prop :=
  digits ≠ [] ∧ digits.length ≤ 3 ∧ Nat.ofDigitChars 10 digits 0 ≤ 255 ∧
    (digits.head? = some '0' → digits.length ≤ 1)

instance (digits : List Char) : Decidable (OctetText digits) :=
  inferInstanceAs (Decidable (_ ∧ _ ∧ _ ∧ _))

def octetOf (digits : List Char) : UInt8 := UInt8.ofNat (Nat.ofDigitChars 10 digits 0)

theorem readOctet_digits {digits rest : List Char}
    (decimal : ∀ char ∈ digits, char.isDigit = true)
    (ends : ∀ char ∈ rest.head?, char.isDigit = false) :
    readOctet (digits ++ rest) = if OctetText digits then some (octetOf digits, rest) else none := by
  have run : (digits ++ rest).takeWhile (fun char => (toDigit 10 char).isSome) = digits := by
    simp only [toDigit_ten_isSome]
    exact takeWhile_of_ending decimal ends
  have unreadable : (digits = [] ∨ 3 < digits.length ∨ 255 < Nat.ofDigitChars 10 digits 0) ↔
      ¬(digits ≠ [] ∧ digits.length ≤ 3 ∧ Nat.ofDigitChars 10 digits 0 ≤ 255) := by
    by_cases empty : digits = []
    · simp [empty]
    · simp only [empty, ne_eq, not_false_eq_true, true_and, false_or]
      omega
  have padded : (!false && digits.head? == some '0' && decide (1 < digits.length)) = true ↔
      ¬(digits.head? = some '0' → digits.length ≤ 1) := by
    simp
  unfold readOctet readNumber
  simp only [run, foldl_toDigit_ten decimal, List.drop_left, unreadable, padded]
  by_cases readable : digits ≠ [] ∧ digits.length ≤ 3 ∧ Nat.ofDigitChars 10 digits 0 ≤ 255
  · rw [if_neg (not_not_intro readable)]
    by_cases unpadded : digits.head? = some '0' → digits.length ≤ 1
    · have octet : OctetText digits := ⟨readable.1, readable.2.1, readable.2.2, unpadded⟩
      rw [if_neg (not_not_intro unpadded), if_pos octet]
      rfl
    · rw [if_pos unpadded, if_neg fun text : OctetText digits => unpadded text.2.2.2]
      rfl
  · rw [if_pos readable,
      if_neg fun text : OctetText digits => readable ⟨text.1, text.2.1, text.2.2.1⟩]
    rfl

theorem isDigit_of_mem_toDigits {number : Nat} {char : Char}
    (member : char ∈ Nat.toDigits 10 number) : char.isDigit = true :=
  Nat.isDigit_of_mem_toDigits (by decide) (by decide) member

/-! ## Dotted quads -/

def quadText (a b c d : List Char) : List Char := a ++ '.' :: (b ++ '.' :: (c ++ '.' :: d))

structure QuadText (a b c d : List Char) : Prop where
  first : OctetText a
  second : OctetText b
  third : OctetText c
  fourth : OctetText d

instance (a b c d : List Char) : Decidable (QuadText a b c d) :=
  decidable_of_iff (OctetText a ∧ OctetText b ∧ OctetText c ∧ OctetText d)
    ⟨fun ⟨first, second, third, fourth⟩ => ⟨first, second, third, fourth⟩,
      fun quad => ⟨quad.first, quad.second, quad.third, quad.fourth⟩⟩

theorem readIpv4Addr_quadText {a b c d rest : List Char}
    (aDigits : ∀ char ∈ a, char.isDigit = true) (bDigits : ∀ char ∈ b, char.isDigit = true)
    (cDigits : ∀ char ∈ c, char.isDigit = true) (dDigits : ∀ char ∈ d, char.isDigit = true)
    (ends : ∀ char ∈ rest.head?, char.isDigit = false) :
    readIpv4Addr (quadText a b c d ++ rest) =
      if QuadText a b c d then
        some (.new (octetOf a) (octetOf b) (octetOf c) (octetOf d), rest)
      else none := by
  have dot : ∀ text : List Char, ∀ char ∈ ('.' :: text).head?, char.isDigit = false := by
    intro text char first
    cases first
    rfl
  have joined : quadText a b c d ++ rest =
      a ++ '.' :: (b ++ '.' :: (c ++ '.' :: (d ++ rest))) := by simp [quadText]
  simp only [readIpv4Addr, readSeparator, readGivenChar, joined, ↓reduceIte, Bool.false_eq_true,
    readOctet_digits aDigits (dot _)]
  by_cases first : OctetText a
  · simp only [first, ↓reduceIte, Option.bind_eq_bind, Option.bind_some,
      readOctet_digits bDigits (dot _)]
    by_cases second : OctetText b
    · simp only [second, ↓reduceIte, Option.bind_some, readOctet_digits cDigits (dot _)]
      by_cases third : OctetText c
      · simp only [third, ↓reduceIte, Option.bind_some, readOctet_digits dDigits ends]
        by_cases fourth : OctetText d
        · simp only [fourth, ↓reduceIte, Option.bind_some]
          rw [if_pos ⟨first, second, third, fourth⟩]
          rfl
        · rw [if_neg fourth, if_neg fun quad => fourth quad.fourth]
          rfl
      · rw [if_neg third, if_neg fun quad => third quad.third]
        rfl
    · rw [if_neg second, if_neg fun quad => second quad.second]
      rfl
  · rw [if_neg first, if_neg fun quad => first quad.first]
    rfl

/-! ## What a reader consumes -/

/-- What a reader leaves is the end of its text, after characters it may consume. -/
def Consumes (allowed : Char → Prop) (text rest : List Char) : Prop :=
  ∃ taken, text = taken ++ rest ∧ ∀ char ∈ taken, allowed char

def InAddress (char : Char) : Prop :=
  (toDigit 16 char).isSome = true ∨ char = '.' ∨ char = ':'

section Consumption

variable {allowed : Char → Prop} {text middle rest : List Char}

theorem Consumes.refl (allowed : Char → Prop) (text : List Char) : Consumes allowed text text :=
  ⟨[], rfl, nofun⟩

theorem Consumes.trans (first : Consumes allowed text middle)
    (second : Consumes allowed middle rest) : Consumes allowed text rest := by
  obtain ⟨taken, rfl, allowedFirst⟩ := first
  obtain ⟨more, rfl, allowedSecond⟩ := second
  refine ⟨taken ++ more, (List.append_assoc ..).symm, fun char member => ?_⟩
  rcases List.mem_append.mp member with member | member
  · exact allowedFirst char member
  · exact allowedSecond char member

theorem Consumes.all (complete : Consumes allowed text []) : ∀ char ∈ text, allowed char := by
  obtain ⟨taken, rfl, inside⟩ := complete
  simpa using inside

theorem readNumber_consumes {radix maxDigits limit value : Nat} {allowZeroPrefix : Bool}
    (read : readNumber radix maxDigits limit allowZeroPrefix text = some (value, rest)) :
    Consumes (fun char => (toDigit radix char).isSome = true) text rest := by
  unfold readNumber at read
  dsimp only at read
  split at read
  · contradiction
  · split at read
    · contradiction
    · obtain ⟨-, left⟩ := Prod.mk.inj (Option.some.inj read)
      refine ⟨text.takeWhile fun char => (toDigit radix char).isSome, ?_, fun char member => ?_⟩
      · rw [← left]
        exact (List.prefix_iff_eq_append.mp (List.takeWhile_prefix _)).symm
      · exact List.mem_takeWhile_imp (p := fun char => (toDigit radix char).isSome) member

theorem readGivenChar_consumes {expected : Char} (mayRead : allowed expected)
    (read : readGivenChar expected text = some rest) : Consumes allowed text rest := by
  cases text with
  | nil => contradiction
  | cons char text =>
      simp only [readGivenChar] at read
      split at read
      · cases read
        refine ⟨[char], rfl, fun other member => ?_⟩
        rw [List.mem_singleton.mp member]
        rwa [‹char = expected›]
      · contradiction

theorem readSeparator_consumes {β : Type} {separator : Char} {first : Bool}
    {inner : List Char → Option (β × List Char)} {value : β} (mayRead : allowed separator)
    (consumes : ∀ text value rest, inner text = some (value, rest) → Consumes allowed text rest)
    (read : readSeparator separator first inner text = some (value, rest)) :
    Consumes allowed text rest := by
  cases first with
  | true => exact consumes text value rest read
  | false =>
      obtain ⟨middle, separated, inside⟩ := Option.bind_eq_some_iff.mp read
      exact (readGivenChar_consumes mayRead separated).trans (consumes middle value rest inside)

theorem isSome_toDigit_of_ten {char : Char} (digit : (toDigit 10 char).isSome = true) :
    (toDigit 16 char).isSome = true := by
  rw [toDigit_ten_isSome] at digit
  rw [toDigit_of_isDigit (by decide) digit]
  rfl

theorem Consumes.mono {wider : Char → Prop} (consumes : Consumes allowed text rest)
    (within : ∀ char, allowed char → wider char) : Consumes wider text rest := by
  obtain ⟨taken, same, inside⟩ := consumes
  exact ⟨taken, same, fun char member => within char (inside char member)⟩

theorem readOctet_consumes {octet : UInt8} (read : readOctet text = some (octet, rest)) :
    Consumes InAddress text rest := by
  obtain ⟨⟨value, after⟩, number, same⟩ := Option.map_eq_some_iff.mp read
  cases same
  exact (readNumber_consumes number).mono fun char digit => .inl (isSome_toDigit_of_ten digit)

theorem readGroup_consumes {octets : List UInt8} (read : readGroup text = some (octets, rest)) :
    Consumes InAddress text rest := by
  obtain ⟨⟨value, after⟩, number, same⟩ := Option.map_eq_some_iff.mp read
  cases same
  exact (readNumber_consumes number).mono fun char digit => .inl digit

theorem readIpv4Addr_consumes {address : Ipv4Addr} (read : readIpv4Addr text = some (address, rest)) :
    Consumes InAddress text rest := by
  have octet : ∀ first text value rest, readSeparator '.' first readOctet text = some (value, rest) →
      Consumes InAddress text rest := fun first text value rest =>
    readSeparator_consumes (.inr (.inl rfl)) fun _ _ _ => readOctet_consumes
  simp only [readIpv4Addr, Option.bind_eq_bind, Option.bind_eq_some_iff] at read
  obtain ⟨⟨a, afterA⟩, readA, ⟨b, afterB⟩, readB, ⟨c, afterC⟩, readC, ⟨d, afterD⟩, readD, same⟩ := read
  cases same
  exact (((octet _ _ _ _ readA).trans (octet _ _ _ _ readB)).trans (octet _ _ _ _ readC)).trans
    (octet _ _ _ _ readD)

theorem readGroups_consumes (remaining : Nat) (first : Bool) (text : List Char) :
    Consumes InAddress text (readGroups remaining first text).2.2 := by
  induction remaining generalizing first text with
  | zero => exact .refl _ _
  | succ remaining ih =>
      unfold readGroups
      dsimp only
      split
      · rename_i address rest embedded
        split at embedded
        · exact readSeparator_consumes (.inr (.inr rfl)) (fun _ _ _ => readIpv4Addr_consumes) embedded
        · contradiction
      · split
        · rename_i group rest read
          exact (readSeparator_consumes (.inr (.inr rfl)) (fun _ _ _ => readGroup_consumes) read).trans
            (ih false rest)
        · exact .refl _ _

theorem readIpv6Addr_consumes {address : Ipv6Addr} (read : readIpv6Addr text = some (address, rest)) :
    Consumes InAddress text rest := by
  have head := readGroups_consumes 8 true text
  unfold readIpv6Addr at read
  dsimp only at read
  split at read
  · cases read
    exact head
  · split at read
    · contradiction
    · simp only [Option.bind_eq_bind, Option.bind_eq_some_iff] at read
      obtain ⟨afterFirst, firstColon, afterSecond, secondColon, tail⟩ := read
      split at tail
      · cases tail
        exact ((head.trans (readGivenChar_consumes (.inr (.inr rfl)) firstColon)).trans
          (readGivenChar_consumes (.inr (.inr rfl)) secondColon)).trans (readGroups_consumes _ _ _)
      · contradiction

/-- A text that reads as an address has only digits, dots and colons. -/
theorem parseIpAddr_inAddress {address : IpAddr} (parsed : parseIpAddr text = some address) :
    ∀ char ∈ text, InAddress char := by
  unfold parseIpAddr at parsed
  split at parsed
  · rename_i found read
    cases parsed
    apply Consumes.all
    cases four : readIpv4Addr text with
    | some result =>
        obtain ⟨address, rest⟩ := result
        simp only [four, Option.map_some, Option.orElse_some] at read
        cases read
        exact readIpv4Addr_consumes four
    | none =>
        simp only [four, Option.map_none, Option.orElse_none, Option.map_eq_some_iff] at read
        obtain ⟨⟨address, rest⟩, six, same⟩ := read
        cases same
        exact readIpv6Addr_consumes six
  · contradiction

end Consumption

/-! ## Texts that are no IPv6 address -/

theorem readGivenChar_of_absent {expected : Char} {text : List Char} (absent : expected ∉ text) :
    readGivenChar expected text = none := by
  cases text with
  | nil => rfl
  | cons char text =>
      apply if_neg
      rintro rfl
      exact absent (by simp)

theorem readGroups_of_no_colon {remaining : Nat} {text : List Char} (absent : ':' ∉ text) :
    readGroups remaining false text = ([], false, text) := by
  cases remaining with
  | zero => rfl
  | succ remaining => simp [readGroups, readSeparator, readGivenChar_of_absent absent]

theorem readGroups_first_of_no_colon (remaining : Nat) {text : List Char} (absent : ':' ∉ text) :
    (readGroups (remaining + 1) true text).1.length ≤ 4 ∧
      ':' ∉ (readGroups (remaining + 1) true text).2.2 := by
  have rest_absent : ∀ {rest : List Char}, Consumes InAddress text rest → ':' ∉ rest := by
    rintro rest ⟨taken, rfl, -⟩ member
    exact absent (by simp [member])
  refine ⟨?_, rest_absent (readGroups_consumes _ _ _)⟩
  unfold readGroups
  simp only [readSeparator, ↓reduceIte]
  split
  · rename_i address rest _
    exact address.size.le
  · split
    · rename_i group rest read
      have short : group.length = 2 := by
        obtain ⟨⟨value, after⟩, -, same⟩ := Option.map_eq_some_iff.mp read
        cases same
        rfl
      rw [readGroups_of_no_colon (rest_absent (readGroup_consumes read)), List.append_nil, short]
      decide
    · exact Nat.zero_le _

theorem readIpv6Addr_of_no_colon {text : List Char} (absent : ':' ∉ text) :
    readIpv6Addr text = none := by
  have first := readGroups_first_of_no_colon 7 absent
  unfold readIpv6Addr
  generalize readGroups 8 true text = groups at first ⊢
  obtain ⟨head, headIpv4, rest⟩ := groups
  obtain ⟨short, left⟩ := first
  have incomplete : head.length ≠ 16 := by
    dsimp only at short
    omega
  simp [incomplete, readGivenChar_of_absent left]

theorem parseIpAddr_of_no_colon {text : List Char} (absent : ':' ∉ text) :
    parseIpAddr text =
      match readIpv4Addr text with
      | some (address, []) => some (.v4 address)
      | _ => none := by
  unfold parseIpAddr
  rw [readIpv6Addr_of_no_colon absent]
  cases readIpv4Addr text with
  | none => rfl
  | some result =>
      obtain ⟨address, rest⟩ := result
      cases rest <;> rfl

theorem parseIpAddr_quadText {a b c d : List Char}
    (aDigits : ∀ char ∈ a, char.isDigit = true) (bDigits : ∀ char ∈ b, char.isDigit = true)
    (cDigits : ∀ char ∈ c, char.isDigit = true) (dDigits : ∀ char ∈ d, char.isDigit = true) :
    parseIpAddr (quadText a b c d) =
      if QuadText a b c d then
        some (.v4 (.new (octetOf a) (octetOf b) (octetOf c) (octetOf d)))
      else none := by
  have no_colon : ∀ {digits : List Char}, (∀ char ∈ digits, char.isDigit = true) →
      ':' ∉ digits := by
    intro digits decimal member
    exact absurd (decimal ':' member) (by decide)
  have absent : ':' ∉ quadText a b c d := by
    simp [quadText, no_colon aDigits, no_colon bDigits, no_colon cDigits, no_colon dDigits]
  have read := @readIpv4Addr_quadText _ _ _ _ [] aDigits bDigits cDigits dDigits nofun
  rw [List.append_nil] at read
  rw [parseIpAddr_of_no_colon absent, read]
  by_cases quad : QuadText a b c d
  · simp only [quad, ↓reduceIte]
  · simp only [quad, ↓reduceIte]

end Filehost.Ip
