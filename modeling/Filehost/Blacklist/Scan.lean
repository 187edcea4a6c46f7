import Filehost.Blacklist.Parse
import Filehost.Ip.Notation

namespace Filehost.Blacklist

open Filehost.Ip

/-! # What the expression finds in a block

A block stands between separators: four runs of digits with dots between them, of
any length, and maybe a slash and digits behind them. -/

def prefixText : Option (List Char) → List Char
  | none => []
  | some digits => '/' :: digits

def Separator (isDigit : Char → Bool) (char : Char) : Prop :=
  isDigit char = false ∧ char ≠ '.' ∧ char ≠ '/'

instance (isDigit : Char → Bool) (char : Char) : Decidable (Separator isDigit char) :=
  inferInstanceAs (Decidable (_ ∧ _ ∧ _))

/-- What a match covers. -/
def Capture.whole (capture : Capture) : List Char :=
  capture.address ++ prefixText capture.prefixLength

theorem Capture.length_eq (capture : Capture) : capture.length = capture.whole.length := by
  cases found : capture.prefixLength <;> simp [length, whole, prefixText, found]

section Scan

variable {isDigit : Char → Bool} {text piece rest digits a b c d : List Char}

theorem matchDigits_append (limit : Nat) (decimal : ∀ char ∈ digits, isDigit char = true)
    (ends : ∀ char ∈ rest.head?, isDigit char = false) :
    matchDigits isDigit limit (digits ++ rest) =
      if digits.take limit = [] then none
      else some (digits.take limit, digits.drop limit ++ rest) := by
  have left : (digits ++ rest).drop (digits.take limit).length = digits.drop limit ++ rest := by
    rw [List.drop_append_of_le_length (List.length_take_le' _ _), List.length_take]
    rcases Nat.le_total limit digits.length with short | long
    · rw [Nat.min_eq_left short]
    · rw [Nat.min_eq_right long, List.drop_length, List.drop_of_length_le long]
  simp only [matchDigits, takeWhile_of_ending decimal ends, left]

theorem matchDigits_inversion {limit : Nat}
    (found : matchDigits isDigit limit text = some (digits, rest)) :
    text = digits ++ rest ∧ ∀ char ∈ digits, isDigit char = true := by
  simp only [matchDigits] at found
  split at found
  · contradiction
  · obtain ⟨same, left⟩ := Prod.mk.inj (Option.some.inj found)
    have initial : digits <+: text := by
      rw [← same]
      exact (List.take_prefix _ _).trans (List.takeWhile_prefix _)
    rw [same] at left
    refine ⟨?_, fun char member => ?_⟩
    · rw [← left]
      exact List.prefix_iff_eq_append.mp initial |>.symm
    · rw [← same] at member
      exact List.mem_takeWhile_imp (List.mem_of_mem_take member)

theorem readGivenChar_inversion {expected : Char} (read : readGivenChar expected text = some rest) :
    text = expected :: rest := by
  cases text with
  | nil => contradiction
  | cons char text =>
      simp only [readGivenChar] at read
      split at read
      · cases read
        rw [‹char = expected›]
      · contradiction

theorem matchRange_inversion {capture : Capture}
    (matched : matchRange isDigit text = some capture) :
    ∃ a b c d left, text = quadText a b c d ++ left ∧
      ∀ char ∈ quadText a b c d, isDigit char = true ∨ char = '.' := by
  simp only [matchRange, Option.bind_eq_bind, Option.bind_eq_some_iff] at matched
  obtain ⟨⟨a, afterA⟩, readA, dotA, first, ⟨b, afterB⟩, readB, dotB, second, ⟨c, afterC⟩, readC,
    dotC, third, ⟨d, afterD⟩, readD, -⟩ := matched
  obtain ⟨rfl, aDigits⟩ := matchDigits_inversion readA
  obtain rfl := readGivenChar_inversion first
  obtain ⟨rfl, bDigits⟩ := matchDigits_inversion readB
  obtain rfl := readGivenChar_inversion second
  obtain ⟨rfl, cDigits⟩ := matchDigits_inversion readC
  obtain rfl := readGivenChar_inversion third
  obtain ⟨rfl, dDigits⟩ := matchDigits_inversion readD
  refine ⟨a, b, c, d, afterD, by simp [quadText], ?_⟩
  intro char member
  simp only [quadText, List.mem_append, List.mem_cons] at member
  rcases member with member | member | member | member | member | member | member
  · exact .inl (aDigits char member)
  · exact .inr member
  · exact .inl (bDigits char member)
  · exact .inr member
  · exact .inl (cDigits char member)
  · exact .inr member
  · exact .inl (dDigits char member)

theorem three_le_count_quadText (a b c d : List Char) : 3 ≤ (quadText a b c d).count '.' := by
  simp only [quadText, List.count_append, List.count_cons_self]
  omega

/-- A match does not reach past a separator, so a piece with fewer than three dots
in it has none. -/
theorem matchRange_of_few_dots (few : piece.count '.' < 3)
    (ends : ∀ char ∈ rest.head?, Separator isDigit char) :
    matchRange isDigit (piece ++ rest) = none := by
  cases matched : matchRange isDigit (piece ++ rest) with
  | none => rfl
  | some capture =>
      obtain ⟨a, b, c, d, left, same, inside⟩ := matchRange_inversion matched
      have dots := three_le_count_quadText a b c d
      rcases List.append_eq_append_iff.mp same with ⟨more, longer, restSame⟩ | ⟨more, shorter, -⟩
      · cases more with
        | nil =>
            rw [longer, List.append_nil] at dots
            omega
        | cons char more =>
            have separates := ends char (by simp [restSame])
            rcases inside char (by simp [longer]) with digit | dot
            · rw [separates.1] at digit
              contradiction
            · exact absurd dot separates.2.1
      · rw [shorter, List.count_append] at few
        omega

theorem capturesFrom_of_none {char : Char} (unmatched : matchRange isDigit (char :: rest) = none) :
    capturesFrom isDigit 0 (char :: rest) = capturesFrom isDigit 0 rest := by
  simp only [capturesFrom, unmatched]

theorem capturesFrom_of_few_dots (few : piece.count '.' < 3)
    (ends : ∀ char ∈ rest.head?, Separator isDigit char) :
    capturesFrom isDigit 0 (piece ++ rest) = capturesFrom isDigit 0 rest := by
  induction piece with
  | nil => rfl
  | cons char piece ih =>
      have fewer : piece.count '.' < 3 := (List.count_le_count_cons ..).trans_lt few
      exact (capturesFrom_of_none (matchRange_of_few_dots few ends)).trans (ih fewer)

theorem capturesFrom_skip (taken rest : List Char) :
    capturesFrom isDigit taken.length (taken ++ rest) = capturesFrom isDigit 0 rest := by
  induction taken with
  | nil => rfl
  | cons char taken ih => exact ih

theorem capturesFrom_of_match {capture : Capture} {left : List Char}
    (nonempty : capture.whole ≠ [])
    (matched : matchRange isDigit (capture.whole ++ left) = some capture) :
    capturesFrom isDigit 0 (capture.whole ++ left) = capture :: capturesFrom isDigit 0 left := by
  have length := capture.length_eq
  cases same : capture.whole with
  | nil => contradiction
  | cons char taken =>
      rw [same] at matched length
      rw [List.cons_append] at matched ⊢
      simp only [capturesFrom, matched, length, List.length_cons, Nat.add_sub_cancel,
        capturesFrom_skip]

/-! ## The scan of a token -/

theorem readGivenChar_self (expected : Char) (text : List Char) :
    readGivenChar expected (expected :: text) = some text := if_pos rfl

theorem readGivenChar_of_ends {expected : Char} (ends : ∀ char ∈ text.head?, char ≠ expected) :
    readGivenChar expected text = none := by
  cases text with
  | nil => rfl
  | cons char text => exact if_neg (ends char rfl)

theorem matchDigits_three (decimal : ∀ char ∈ digits, isDigit char = true)
    (nonempty : digits ≠ []) (ends : ∀ char ∈ rest.head?, isDigit char = false) :
    matchDigits isDigit 3 (digits ++ rest) = some (digits.take 3, digits.drop 3 ++ rest) := by
  have some : digits.take 3 ≠ [] := by simpa using nonempty
  rw [matchDigits_append _ decimal ends, if_neg some]

/-- The dot after digits is reached when there are at most three of them. -/
theorem readGivenChar_drop {expected : Char} (other : isDigit expected = false)
    (decimal : ∀ char ∈ digits, isDigit char = true) (rest : List Char) :
    readGivenChar expected (digits.drop 3 ++ rest) =
      if digits.length ≤ 3 then readGivenChar expected rest else none := by
  by_cases short : digits.length ≤ 3
  · simp [short, List.drop_of_length_le short]
  · rw [if_neg short]
    apply readGivenChar_of_ends
    intro char first same
    have member : char ∈ digits := by
      rw [List.head?_append_of_ne_nil _ (by simpa using short)] at first
      exact List.mem_of_mem_drop (List.mem_of_mem_head? first)
    rw [same] at member
    rw [decimal expected member] at other
    contradiction

structure Quad (isDigit : Char → Bool) (a b c d : List Char) : Prop where
  first : a ≠ [] ∧ ∀ char ∈ a, isDigit char = true
  second : b ≠ [] ∧ ∀ char ∈ b, isDigit char = true
  third : c ≠ [] ∧ ∀ char ∈ c, isDigit char = true
  fourth : d ≠ [] ∧ ∀ char ∈ d, isDigit char = true

theorem matchRange_quad (dot : isDigit '.' = false) (quad : Quad isDigit a b c d) {tail : List Char}
    (ends : ∀ char ∈ tail.head?, isDigit char = false) :
    matchRange isDigit (quadText a b c d ++ tail) =
      if a.length ≤ 3 ∧ b.length ≤ 3 ∧ c.length ≤ 3 then
        some ⟨quadText a b c (d.take 3), do
          let text ← readGivenChar '/' (d.drop 3 ++ tail)
          let (digits, _) ← matchDigits isDigit 2 text
          return digits⟩
      else none := by
  have joined : quadText a b c d ++ tail =
      a ++ '.' :: (b ++ '.' :: (c ++ '.' :: (d ++ tail))) := by simp [quadText]
  have dotted : ∀ text : List Char, ∀ char ∈ ('.' :: text).head?, isDigit char = false := by
    intro text char first
    cases first
    exact dot
  simp only [matchRange, joined, Option.bind_eq_bind, Option.bind_some,
    matchDigits_three quad.first.2 quad.first.1 (dotted _), readGivenChar_drop dot quad.first.2]
  by_cases first : a.length ≤ 3
  · simp only [first, ↓reduceIte, readGivenChar_self, Option.bind_some, true_and,
      matchDigits_three quad.second.2 quad.second.1 (dotted _),
      readGivenChar_drop dot quad.second.2]
    by_cases second : b.length ≤ 3
    · simp only [second, ↓reduceIte, readGivenChar_self, Option.bind_some, true_and,
        matchDigits_three quad.third.2 quad.third.1 (dotted _),
        readGivenChar_drop dot quad.third.2]
      by_cases third : c.length ≤ 3
      · simp only [third, ↓reduceIte, Option.bind_some,
          matchDigits_three quad.fourth.2 quad.fourth.1 ends, List.take_of_length_le first,
          List.take_of_length_le second, List.take_of_length_le third, quadText]
        rfl
      · simp [third]
    · simp [second]
  · simp [first]

/-- The digits of a prefix that the expression reaches. -/
def shortPrefix (d : List Char) (prefixLength : Option (List Char)) : Option (List Char) :=
  if d.length ≤ 3 then prefixLength.map (List.take 2) else none

def captureOf (a b c d : List Char) (prefixLength : Option (List Char)) : Capture :=
  ⟨quadText a b c (d.take 3), shortPrefix d prefixLength⟩

/-- What the match of a token leaves of it. -/
def leftover (d : List Char) (prefixLength : Option (List Char)) : List Char :=
  if d.length ≤ 3 then (prefixLength.map (List.drop 2)).getD []
  else d.drop 3 ++ prefixText prefixLength

theorem captureOf_leftover (a b c d : List Char) (prefixLength : Option (List Char)) :
    quadText a b c d ++ prefixText prefixLength =
      (captureOf a b c d prefixLength).whole ++ leftover d prefixLength := by
  unfold captureOf shortPrefix leftover Capture.whole
  by_cases short : d.length ≤ 3
  · cases prefixLength with
    | none => simp [short, List.take_of_length_le short, prefixText]
    | some digits => simp [short, List.take_of_length_le short, prefixText]
  · simp only [short, ↓reduceIte, quadText, prefixText, List.append_nil, List.append_assoc,
      List.cons_append]
    rw [← List.append_assoc (d.take 3), List.take_append_drop]

theorem matchRange_token {prefixLength : Option (List Char)} (dot : isDigit '.' = false)
    (slash : isDigit '/' = false) (quad : Quad isDigit a b c d)
    (numeral : ∀ digits ∈ prefixLength, digits ≠ [] ∧ ∀ char ∈ digits, isDigit char = true)
    (ends : ∀ char ∈ rest.head?, Separator isDigit char) :
    matchRange isDigit (quadText a b c d ++ (prefixText prefixLength ++ rest)) =
      if a.length ≤ 3 ∧ b.length ≤ 3 ∧ c.length ≤ 3 then some (captureOf a b c d prefixLength)
      else none := by
  have bounded : ∀ char ∈ (prefixText prefixLength ++ rest).head?, isDigit char = false := by
    intro char first
    cases prefixLength with
    | none => exact (ends char first).1
    | some digits =>
        cases first
        exact slash
  have captured : (do
      let text ← readGivenChar '/' (d.drop 3 ++ (prefixText prefixLength ++ rest))
      let (digits, _) ← matchDigits isDigit 2 text
      return digits) = (captureOf a b c d prefixLength).prefixLength := by
    rw [readGivenChar_drop slash quad.fourth.2, captureOf, shortPrefix]
    by_cases short : d.length ≤ 3
    · cases prefixLength with
      | none =>
          have blocked : readGivenChar '/' rest = none :=
            readGivenChar_of_ends fun char first => (ends char first).2.2
          simp [short, prefixText, blocked]
      | some digits =>
          obtain ⟨nonempty, decimal⟩ := numeral digits rfl
          have some : digits.take 2 ≠ [] := by simpa using nonempty
          have read := matchDigits_append 2 decimal fun char first => (ends char first).1
          rw [if_neg some] at read
          simp [short, prefixText, readGivenChar_self, read]
    · simp [short]
  rw [matchRange_quad dot quad bounded, captured]
  rfl

theorem count_of_digits (dot : isDigit '.' = false)
    (decimal : ∀ char ∈ digits, isDigit char = true) : digits.count '.' = 0 := by
  apply List.count_eq_zero.mpr
  intro member
  rw [decimal '.' member] at dot
  contradiction

theorem count_prefixText {prefixLength : Option (List Char)} (dot : isDigit '.' = false)
    (numeral : ∀ digits ∈ prefixLength, digits ≠ [] ∧ ∀ char ∈ digits, isDigit char = true) :
    (prefixText prefixLength).count '.' = 0 := by
  cases prefixLength with
  | none => rfl
  | some digits =>
      rw [prefixText, List.count_cons_of_ne (by decide)]
      exact count_of_digits dot (numeral digits rfl).2

theorem count_leftover {prefixLength : Option (List Char)} (dot : isDigit '.' = false)
    (decimal : ∀ char ∈ d, isDigit char = true)
    (numeral : ∀ digits ∈ prefixLength, digits ≠ [] ∧ ∀ char ∈ digits, isDigit char = true) :
    (leftover d prefixLength).count '.' = 0 := by
  unfold leftover
  split
  · cases prefixLength with
    | none => rfl
    | some digits =>
        exact count_of_digits dot fun char member =>
          (numeral digits rfl).2 char (List.mem_of_mem_drop member)
  · rw [List.count_append, count_prefixText dot numeral, Nat.add_zero]
    exact count_of_digits dot fun char member => decimal char (List.mem_of_mem_drop member)

def lastThree (digits : List Char) : List Char := digits.drop (digits.length - 3)

/-- What the expression finds in a token. -/
def capturesOf (a b c d : List Char) (prefixLength : Option (List Char)) : Option Capture :=
  if b.length ≤ 3 ∧ c.length ≤ 3 then some (captureOf (lastThree a) b c d prefixLength) else none

theorem Quad.tail {char : Char} (quad : Quad isDigit (char :: a) b c d) (nonempty : a ≠ []) :
    Quad isDigit a b c d :=
  ⟨⟨nonempty, fun other member => quad.first.2 other (by simp [member])⟩, quad.second, quad.third,
    quad.fourth⟩

theorem capturesFrom_of_long {prefixLength : Option (List Char)} (dot : isDigit '.' = false)
    (slash : isDigit '/' = false) (quad : Quad isDigit a b c d)
    (numeral : ∀ digits ∈ prefixLength, digits ≠ [] ∧ ∀ char ∈ digits, isDigit char = true)
    (ends : ∀ char ∈ rest.head?, Separator isDigit char) (long : ¬(b.length ≤ 3 ∧ c.length ≤ 3)) :
    capturesFrom isDigit 0 (quadText a b c d ++ (prefixText prefixLength ++ rest)) =
      capturesFrom isDigit 0 rest := by
  induction a with
  | nil => exact absurd rfl quad.first.1
  | cons char a ih =>
      have unmatched := matchRange_token dot slash quad numeral ends
      rw [if_neg fun short => long short.2] at unmatched
      refine (capturesFrom_of_none unmatched).trans ?_
      by_cases last : a = []
      · -- past the first octet two dots are left
        subst last
        have noMatch : matchRange isDigit
            ('.' :: (b ++ '.' :: (c ++ '.' :: d) ++ (prefixText prefixLength ++ rest))) = none := by
          simp [matchRange, matchDigits, dot]
        have few : (b ++ '.' :: (c ++ '.' :: d) ++ prefixText prefixLength).count '.' < 3 := by
          simp [List.count_append, count_of_digits dot quad.second.2,
            count_of_digits dot quad.third.2, count_of_digits dot quad.fourth.2,
            count_prefixText dot numeral]
        have scanned := capturesFrom_of_few_dots few ends
        rw [List.append_assoc] at scanned
        exact (capturesFrom_of_none noMatch).trans scanned
      · exact ih (quad.tail last)

theorem lastThree_of_short (short : digits.length ≤ 3) : lastThree digits = digits := by
  rw [lastThree, Nat.sub_eq_zero_of_le short, List.drop_zero]

theorem lastThree_cons {char : Char} (long : 3 ≤ digits.length) :
    lastThree (char :: digits) = lastThree digits := by
  rw [lastThree, List.length_cons, Nat.succ_sub long]
  rfl

/-- The scan gives up the front of the first octet until three digits are left
before the dot. -/
theorem capturesFrom_of_short {prefixLength : Option (List Char)} (dot : isDigit '.' = false)
    (slash : isDigit '/' = false) (quad : Quad isDigit a b c d)
    (numeral : ∀ digits ∈ prefixLength, digits ≠ [] ∧ ∀ char ∈ digits, isDigit char = true)
    (ends : ∀ char ∈ rest.head?, Separator isDigit char) (short : b.length ≤ 3 ∧ c.length ≤ 3) :
    capturesFrom isDigit 0 (quadText a b c d ++ (prefixText prefixLength ++ rest)) =
      captureOf (lastThree a) b c d prefixLength :: capturesFrom isDigit 0 rest := by
  induction a with
  | nil => exact absurd rfl quad.first.1
  | cons char a ih =>
      have matched := matchRange_token dot slash quad numeral ends
      by_cases first : (char :: a).length ≤ 3
      · rw [if_pos ⟨first, short⟩, ← List.append_assoc, captureOf_leftover, List.append_assoc]
          at matched
        have few : (leftover d prefixLength).count '.' < 3 := by
          rw [count_leftover dot quad.fourth.2 numeral]
          decide
        rw [← List.append_assoc, captureOf_leftover, List.append_assoc, lastThree_of_short first,
          capturesFrom_of_match (by simp [Capture.whole, captureOf, quadText]) matched,
          capturesFrom_of_few_dots few ends]
      · rw [if_neg fun all => first all.1] at matched
        have three : 3 ≤ a.length := by
          rw [List.length_cons] at first
          omega
        have nonempty : a ≠ [] := by
          rintro rfl
          contradiction
        rw [lastThree_cons three, ← ih (quad.tail nonempty)]
        exact capturesFrom_of_none matched

theorem capturesFrom_quad {prefixLength : Option (List Char)} (dot : isDigit '.' = false)
    (slash : isDigit '/' = false) (quad : Quad isDigit a b c d)
    (numeral : ∀ digits ∈ prefixLength, digits ≠ [] ∧ ∀ char ∈ digits, isDigit char = true)
    (ends : ∀ char ∈ rest.head?, Separator isDigit char) :
    capturesFrom isDigit 0 (quadText a b c d ++ (prefixText prefixLength ++ rest)) =
      (capturesOf a b c d prefixLength).toList ++ capturesFrom isDigit 0 rest := by
  unfold capturesOf
  by_cases short : b.length ≤ 3 ∧ c.length ≤ 3
  · rw [if_pos short, capturesFrom_of_short dot slash quad numeral ends short]
    rfl
  · rw [if_neg short, capturesFrom_of_long dot slash quad numeral ends short]
    rfl

end Scan

end Filehost.Blacklist
