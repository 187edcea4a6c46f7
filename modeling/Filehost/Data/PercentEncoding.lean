import Mathlib.Data.List.Basic

namespace Filehost.Data.PercentEncoding

/-! # Percent-encoding

Texts are encoded as UTF-8.  Bytes of characters that are not kept are written as two
hexadecimal digits after a percent sign. -/

def utf8Bytes (text : List Char) : List UInt8 := text.flatMap String.utf8EncodeChar

def utf8Text (bytes : List UInt8) : Option (List Char) :=
  bytes.toByteArray.utf8Decode?.map Array.toList

theorem utf8Text_utf8Bytes (text : List Char) : utf8Text (utf8Bytes text) = some text := by
  have decoded := List.utf8Decode?_utf8Encode (l := text)
  rw [List.utf8Encode] at decoded
  rw [utf8Text, utf8Bytes, decoded]
  rfl

theorem utf8Bytes_inj {left right : List Char} :
    utf8Bytes left = utf8Bytes right ↔ left = right := by
  constructor
  · intro same
    have texts := congrArg utf8Text same
    rwa [utf8Text_utf8Bytes, utf8Text_utf8Bytes, Option.some.injEq] at texts
  · exact congrArg utf8Bytes

theorem utf8Text_eq_some_iff {bytes : List UInt8} {text : List Char} :
    utf8Text bytes = some text ↔ bytes = utf8Bytes text := by
  constructor
  · intro decoded
    obtain ⟨characters, found, rfl⟩ := Option.map_eq_some_iff.mp decoded
    have present : bytes.toByteArray.utf8Decode?.isSome = true := by rw [found]; rfl
    have encoded := ByteArray.utf8Encode_get_utf8Decode? (h := present)
    simp only [found, Option.get_some, List.utf8Encode] at encoded
    exact (List.toByteArray_inj.mp encoded).symm
  · rintro rfl
    exact utf8Text_utf8Bytes text

theorem utf8Bytes_sublist {left right : List Char} (sublist : left.Sublist right) :
    (utf8Bytes left).Sublist (utf8Bytes right) := by
  induction sublist with
  | slnil => exact .slnil
  | cons char _ ih => exact ih.trans (List.sublist_append_right _ _)
  | cons_cons char _ ih => exact ih.append_left _

/-- A text has fewer bytes than one it is a proper part of. -/
theorem eq_of_sublist_of_bytes {left right : List Char} (sublist : left.Sublist right)
    (enough : (utf8Bytes right).length ≤ (utf8Bytes left).length) : left = right :=
  utf8Bytes_inj.mp ((utf8Bytes_sublist sublist).eq_of_length_le enough)

def hexDigit (digit : Nat) : Char := (Nat.digitChar digit).toUpper

def hexValue (char : Char) : Option Nat :=
  if '0' ≤ char ∧ char ≤ '9' then some (char.toNat - '0'.toNat)
  else if 'a' ≤ char ∧ char ≤ 'f' then some (char.toNat - 'a'.toNat + 10)
  else if 'A' ≤ char ∧ char ≤ 'F' then some (char.toNat - 'A'.toNat + 10)
  else none

def percentByte (byte : UInt8) : List Char :=
  ['%', hexDigit (byte.toNat / 16), hexDigit (byte.toNat % 16)]

def encodeChar (kept : Char → Bool) (char : Char) : List Char :=
  if kept char then [char] else (String.utf8EncodeChar char).flatMap percentByte

def encode (kept : Char → Bool) (text : List Char) : List Char := text.flatMap (encodeChar kept)

/-- A percent sign that two hexadecimal digits do not follow stands for itself. -/
def decode : List Char → List UInt8
  | [] => []
  | '%' :: high :: low :: rest =>
      match hexValue high, hexValue low with
      | some highValue, some lowValue => UInt8.ofNat (16 * highValue + lowValue) :: decode rest
      | _, _ => 0x25 :: decode (high :: low :: rest)
  | char :: rest => String.utf8EncodeChar char ++ decode rest

/-- Some percent sign has two hexadecimal digits behind it. -/
def hasEscape : List Char → Bool
  | '%' :: high :: low :: rest =>
      ((hexValue high).isSome && (hexValue low).isSome) || hasEscape (high :: low :: rest)
  | _ :: rest => hasEscape rest
  | [] => false

/-- The byte that two hexadecimal digits at the front denote, and what follows them. -/
def leadingByte : List Char → Option (UInt8 × List Char)
  | high :: low :: rest =>
      match hexValue high, hexValue low with
      | some highValue, some lowValue => some (UInt8.ofNat (16 * highValue + lowValue), rest)
      | _, _ => none
  | _ => none

theorem decode_percent (text : List Char) :
    decode ('%' :: text) =
      match leadingByte text with
      | some (byte, rest) => byte :: decode rest
      | none => 0x25 :: decode text := by
  match text with
  | [] => rfl
  | [_] => rfl
  | high :: low :: rest =>
      rw [decode, leadingByte]
      cases hexValue high <;> cases hexValue low <;> rfl

theorem decode_cons_of_ne {char : Char} (plain : char ≠ '%') (text : List Char) :
    decode (char :: text) = String.utf8EncodeChar char ++ decode text := by
  rw [decode]
  rintro high low rest rfl -
  exact plain rfl

theorem hasEscape_percent (text : List Char) :
    hasEscape ('%' :: text) = ((leadingByte text).isSome || hasEscape text) := by
  match text with
  | [] => rfl
  | [_] => rfl
  | high :: low :: rest =>
      rw [hasEscape, leadingByte]
      cases hexValue high <;> cases hexValue low <;> rfl

theorem hasEscape_cons_of_ne {char : Char} (plain : char ≠ '%') (text : List Char) :
    hasEscape (char :: text) = hasEscape text := by
  rw [hasEscape]
  rintro high low rest rfl -
  exact plain rfl

theorem hexValue_hexDigit {digit : Nat} (small : digit < 16) :
    hexValue (hexDigit digit) = some digit := by
  have all : ∀ digit < 16, hexValue (hexDigit digit) = some digit := by decide
  exact all digit small

theorem decode_percentByte (byte : UInt8) (text : List Char) :
    decode (percentByte byte ++ text) = byte :: decode text := by
  have bound := byte.toNat_lt
  have leading : leadingByte (hexDigit (byte.toNat / 16) :: hexDigit (byte.toNat % 16) :: text) =
      some (byte, text) := by
    rw [leadingByte, hexValue_hexDigit (by omega), hexValue_hexDigit (by omega)]
    simp only [Nat.div_add_mod, UInt8.ofNat_toNat]
  simp only [percentByte, List.cons_append, List.nil_append, decode_percent, leading]

theorem decode_percentBytes (bytes : List UInt8) (text : List Char) :
    decode (bytes.flatMap percentByte ++ text) = bytes ++ decode text := by
  induction bytes with
  | nil => rfl
  | cons byte bytes ih =>
      rw [List.flatMap_cons, List.append_assoc, decode_percentByte, ih, List.cons_append]

section Encoding

variable {kept : Char → Bool}

theorem encode_cons (char : Char) (text : List Char) :
    encode kept (char :: text) = encodeChar kept char ++ encode kept text := rfl

theorem mem_encode {text : List Char} {char : Char} (member : char ∈ encode kept text) :
    char ∈ text ∨ char = '%' ∨ (hexValue char).isSome = true := by
  obtain ⟨original, inside, written⟩ := List.mem_flatMap.mp member
  unfold encodeChar at written
  split at written
  · rw [List.mem_singleton.mp written]
    exact .inl inside
  · obtain ⟨byte, -, digit⟩ := List.mem_flatMap.mp written
    have bound := byte.toNat_lt
    simp only [percentByte, List.mem_cons, List.not_mem_nil, or_false] at digit
    rcases digit with rfl | rfl | rfl
    · exact .inr (.inl rfl)
    · rw [hexValue_hexDigit (by omega)]
      exact .inr (.inr rfl)
    · rw [hexValue_hexDigit (by omega)]
      exact .inr (.inr rfl)

theorem decode_encodeChar {char : Char} (plain : kept char = true → char ≠ '%')
    (text : List Char) :
    decode (encodeChar kept char ++ text) = String.utf8EncodeChar char ++ decode text := by
  cases keeps : kept char with
  | true =>
      rw [encodeChar, if_pos keeps]
      exact decode_cons_of_ne (plain keeps) text
  | false => rw [encodeChar, keeps, if_neg Bool.false_ne_true, decode_percentBytes]

/-- Where the percent sign is not kept, decoding undoes encoding. -/
theorem decode_encode (percent : kept '%' = false) (text : List Char) :
    decode (encode kept text) = utf8Bytes text := by
  induction text with
  | nil => rfl
  | cons char text ih =>
      rw [encode_cons, decode_encodeChar, ih]
      · rfl
      · rintro keeps rfl
        rw [percent] at keeps
        contradiction

/-! ### When percent signs are kept -/

theorem hexValue_percent : hexValue '%' = none := by decide

theorem encodeChar_of_not_kept {char : Char} (unkept : kept char = false) :
    ∃ more, encodeChar kept char = '%' :: more := by
  cases found : String.utf8EncodeChar char with
  | nil => exact absurd found String.utf8EncodeChar_ne_nil
  | cons byte bytes =>
      refine ⟨hexDigit (byte.toNat / 16) :: hexDigit (byte.toNat % 16) ::
        bytes.flatMap percentByte, ?_⟩
      rw [encodeChar, unkept, if_neg Bool.false_ne_true, found]
      rfl

/-- Digits at the front of an encoded text are digits of the text. -/
theorem leadingByte_encode {text rest : List Char} {byte : UInt8}
    (leading : leadingByte (encode kept text) = some (byte, rest)) :
    ∃ left, leadingByte text = some (byte, left) ∧ rest = encode kept left := by
  cases text with
  | nil => contradiction
  | cons high text =>
      cases keepsHigh : kept high with
      | false =>
          obtain ⟨more, same⟩ := encodeChar_of_not_kept keepsHigh
          rw [encode_cons, same] at leading
          cases tail : more ++ encode kept text with
          | nil => simp [tail, leadingByte] at leading
          | cons low rest => simp [tail, leadingByte, hexValue_percent] at leading
      | true =>
          rw [encode_cons, encodeChar, if_pos keepsHigh] at leading
          cases text with
          | nil => contradiction
          | cons low text =>
              cases keepsLow : kept low with
              | false =>
                  obtain ⟨more, same⟩ := encodeChar_of_not_kept keepsLow
                  rw [encode_cons, same] at leading
                  cases value : hexValue high <;>
                    simp [leadingByte, hexValue_percent, value] at leading
              | true =>
                  rw [encode_cons, encodeChar, if_pos keepsLow] at leading
                  simp only [List.cons_append, List.nil_append, leadingByte] at leading ⊢
                  split at leading
                  · obtain ⟨sameByte, sameRest⟩ := Prod.mk.inj (Option.some.inj leading)
                    exact ⟨text, by rw [sameByte], sameRest.symm⟩
                  · contradiction

theorem leadingByte_of_kept (digits : ∀ char, (hexValue char).isSome = true → kept char = true)
    {text left : List Char} {byte : UInt8} (leading : leadingByte text = some (byte, left)) :
    leadingByte (encode kept text) = some (byte, encode kept left) := by
  match text with
  | [] => contradiction
  | [_] => contradiction
  | high :: low :: text =>
      simp only [leadingByte] at leading
      split at leading
      · rename_i highValue lowValue highDigit lowDigit
        obtain ⟨rfl, rfl⟩ := Prod.mk.inj (Option.some.inj leading)
        have keepsHigh := digits high (by simp [highDigit])
        have keepsLow := digits low (by simp [lowDigit])
        simp [encode, encodeChar, keepsHigh, keepsLow, leadingByte, highDigit, lowDigit]
      · contradiction

theorem leadingByte_eq_some {text left : List Char} {byte : UInt8}
    (leading : leadingByte text = some (byte, left)) :
    ∃ high low, text = high :: low :: left := by
  match text with
  | [] => contradiction
  | [_] => contradiction
  | high :: low :: text =>
      simp only [leadingByte] at leading
      split at leading
      · cases leading
        exact ⟨high, low, rfl⟩
      · contradiction

theorem encode_percent (percent : kept '%' = true) (text : List Char) :
    encode kept ('%' :: text) = '%' :: encode kept text := by
  rw [encode_cons, encodeChar, if_pos percent, List.singleton_append]

theorem utf8EncodeChar_percent : String.utf8EncodeChar '%' = [0x25] := by decide

/-- Decoding undoes encoding where the text has no escapes of its own. -/
theorem decode_encode_of_no_escape (percent : kept '%' = true) {text : List Char}
    (plain : hasEscape text = false) : decode (encode kept text) = utf8Bytes text := by
  induction text with
  | nil => rfl
  | cons char text ih =>
      by_cases sign : char = '%'
      · subst sign
        rw [hasEscape_percent, Bool.or_eq_false_iff] at plain
        have none : leadingByte (encode kept text) = none := by
          cases leading : leadingByte (encode kept text) with
          | none => rfl
          | some result =>
              obtain ⟨left, found, -⟩ := leadingByte_encode leading
              simp [found] at plain
        rw [encode_percent percent, decode_percent, none, ih plain.2]
        rfl
      · rw [hasEscape_cons_of_ne sign] at plain
        rw [encode_cons, decode_encodeChar fun _ => sign, ih plain]
        rfl

theorem utf8Bytes_cons (char : Char) (text : List Char) :
    utf8Bytes (char :: text) = String.utf8EncodeChar char ++ utf8Bytes text := rfl

theorem one_le_length_utf8EncodeChar (char : Char) : 1 ≤ (String.utf8EncodeChar char).length :=
  List.length_pos_iff.mpr String.utf8EncodeChar_ne_nil

/-- An escape is decoded to less than its three characters. -/
theorem decode_encode_length (percent : kept '%' = true)
    (digits : ∀ char, (hexValue char).isSome = true → kept char = true) (text : List Char) :
    (decode (encode kept text)).length ≤ (utf8Bytes text).length ∧
      (hasEscape text = true → (decode (encode kept text)).length < (utf8Bytes text).length) := by
  induction size : text.length using Nat.strongRecOn generalizing text with
  | ind size ih =>
      match text with
      | [] => exact ⟨Nat.le_refl _, nofun⟩
      | char :: text =>
          obtain ⟨shorter, strict⟩ :=
            ih text.length (by rw [← size]; exact Nat.lt_succ_self _) text rfl
          by_cases sign : char = '%'
          · subst sign
            rw [encode_percent percent, decode_percent, hasEscape_percent, utf8Bytes_cons,
              utf8EncodeChar_percent]
            cases leading : leadingByte (encode kept text) with
            | none =>
                have unescaped : leadingByte text = none := by
                  cases found : leadingByte text with
                  | none => rfl
                  | some result =>
                      rw [leadingByte_of_kept digits found] at leading
                      contradiction
                simp only [unescaped, List.length_append, List.length_cons, List.length_nil,
                  Option.isSome_none, Bool.false_or]
                exact ⟨by omega, fun escaped => by have less := strict escaped; omega⟩
            | some result =>
                obtain ⟨byte, rest⟩ := result
                obtain ⟨left, found, rfl⟩ := leadingByte_encode leading
                obtain ⟨high, low, rfl⟩ := leadingByte_eq_some found
                have later := (ih left.length (by rw [← size]; simp only [List.length_cons]; omega)
                  left rfl).1
                have highByte := one_le_length_utf8EncodeChar high
                have lowByte := one_le_length_utf8EncodeChar low
                simp only [utf8Bytes_cons, List.length_append, List.length_cons, List.length_nil]
                exact ⟨by omega, fun _ => by omega⟩
          · rw [encode_cons, decode_encodeChar fun _ => sign, hasEscape_cons_of_ne sign,
              utf8Bytes_cons, List.length_append, List.length_append]
            exact ⟨by omega, fun escaped => by have less := strict escaped; omega⟩

end Encoding

end Filehost.Data.PercentEncoding
