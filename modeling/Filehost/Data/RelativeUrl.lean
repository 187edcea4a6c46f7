import Filehost.Data.Fields
import Filehost.Data.PercentEncoding
import Mathlib.Tactic.MkIffOfInductiveProp

namespace Filehost.Data.RelativeUrl

open PercentEncoding

/-! # Relative URLs

How a browser reads a text against the address of a page that has a host: a scheme
makes the text absolute, other texts name a host or a path. -/

/-- An address without its query; its origin is missing where nothing shares it. -/
structure Url where
  origin : Option (List Char)
  path : List (List Char)
deriving DecidableEq

def controlOrSpace (char : Char) : Bool := char.toNat ≤ 0x20

def tabOrNewline (char : Char) : Bool := char = '\t' || char = '\n' || char = '\r'

def stripped (text : List Char) : List Char :=
  (Fields.trim controlOrSpace text).filter fun char => !tabOrNewline char

def schemeChar (char : Char) : Bool :=
  char.isAlphanum || char = '+' || char = '-' || char = '.'

/-- The scheme, in lower case, and what follows its colon. -/
def splitScheme : List Char → Option (List Char × List Char)
  | [] => none
  | first :: text =>
      if first.isAlpha then
        match text.dropWhile schemeChar with
        | ':' :: rest => some ((first :: text.takeWhile schemeChar).map Char.toLower, rest)
        | _ => none
      else none

/-- The characters that a path keeps as they are. -/
def keptInPath (char : Char) : Bool :=
  0x21 ≤ char.toNat && char.toNat ≤ 0x7e && char ≠ '"' && char ≠ '#' && char ≠ '<' &&
    char ≠ '>' && char ≠ '?' && char ≠ '^' && char ≠ '\x60' && char ≠ '\x7b' && char ≠ '\x7d'

def dots : List (List Char) := [['.'], ['%', '2', 'e'], ['%', '2', 'E']]

def singleDot (segment : List Char) : Bool := dots.any fun dot => segment = dot

def doubleDot (segment : List Char) : Bool :=
  dots.any fun first => dots.any fun second => segment = first ++ second

def slash (char : Char) : Bool := char = '/' || char = '\\'

def queryOrFragment (char : Char) : Bool := char = '?' || char = '#'

/-- A segment ends, at a slash or with the path. -/
def closeSegment (path : List (List Char)) (segment : List Char) (more : Bool) : List (List Char) :=
  if doubleDot segment then if more then path.dropLast else path.dropLast ++ [[]]
  else if singleDot segment then if more then path else path ++ [[]]
  else path ++ [segment]

def pathState (path : List (List Char)) (segment : List Char) : List Char → List (List Char)
  | [] => closeSegment path segment false
  | char :: text =>
      if slash char then pathState (closeSegment path segment true) [] text
      else if queryOrFragment char then closeSegment path segment false
      else pathState path (segment ++ encodeChar keptInPath char) text

/-- The schemes whose addresses have an origin that pages can share. -/
def originSchemes : List (List Char) :=
  ["http".toList, "https".toList, "ws".toList, "wss".toList, "ftp".toList, "file".toList,
    "blob".toList]

/-- The rest of the standard: texts with a scheme, texts that name a host, and bytes
that are no UTF-8.  A failure to parse is `none`. -/
structure Browser where
  absolute : Url → List Char → List Char → Option Url
  authority : Url → List Char → Option Url
  replaceMalformed : List UInt8 → List Char
  foreign : ∀ base scheme rest url, scheme ∉ originSchemes →
    absolute base scheme rest = some url → url.origin = none

def Browser.relative (browser : Browser) (base : Url) (text : List Char) : Option Url :=
  match text with
  | [] => some base
  | char :: rest =>
      if slash char then
        if rest.head?.any slash then browser.authority base rest.tail
        else some { base with path := pathState [] [] rest }
      else if queryOrFragment char then some base
      else some { base with path := pathState base.path.dropLast [] text }

def Browser.parse (browser : Browser) (base : Url) (text : List Char) : Option Url :=
  match splitScheme (stripped text) with
  | some (scheme, rest) => browser.absolute base scheme rest
  | none => browser.relative base (stripped text)

/-! ## Queries -/

def Browser.formDecode (browser : Browser) (text : List Char) : List Char :=
  let bytes := decode (text.map fun char => if char = '+' then ' ' else char)
  (utf8Text bytes).getD (browser.replaceMalformed bytes)

/-- The first value of a parameter in a query. -/
def Browser.searchParameter (browser : Browser) (search name : List Char) : Option (List Char) :=
  let query := match search with
    | '?' :: query => query
    | _ => search
  let pairs := (query.splitOn '&').filter (· ≠ [])
  pairs.findSome? fun pair =>
    if browser.formDecode (pair.takeWhile (· ≠ '=')) = name then
      some (browser.formDecode (pair.dropWhile (· ≠ '=')).tail)
    else none

section Paths

variable {path : List (List Char)} {segment text : List Char}

theorem pathState_of_whole
    (whole : ∀ char ∈ text, slash char = false ∧ queryOrFragment char = false) :
    pathState path segment text = closeSegment path (segment ++ encode keptInPath text) false := by
  induction text generalizing segment with
  | nil => rw [pathState, encode, List.flatMap_nil, List.append_nil]
  | cons char text ih =>
      obtain ⟨noSlash, noQuery⟩ := whole char (by simp)
      rw [pathState, noSlash, noQuery, if_neg Bool.false_ne_true, if_neg Bool.false_ne_true,
        ih fun other member => whole other (by simp [member]), encode_cons, List.append_assoc]

/-- A path that ends in a part of the text, encoded, or in an empty segment. -/
def EndsIn (text : List Char) (path : List (List Char)) : Prop :=
  ∃ front part, path = front ++ [encode keptInPath part] ∧ part.Sublist text ∧
    ∀ char ∈ part, slash char = false ∧ queryOrFragment char = false

theorem EndsIn.of_sublist {whole : List Char} (ends : EndsIn text path)
    (sublist : text.Sublist whole) : EndsIn whole path := by
  obtain ⟨front, part, same, inside, plain⟩ := ends
  exact ⟨front, part, same, inside.trans sublist, plain⟩

theorem endsIn_closeSegment {part : List Char} (path : List (List Char))
    (plain : ∀ char ∈ part, slash char = false ∧ queryOrFragment char = false) :
    EndsIn part (closeSegment path (encode keptInPath part) false) := by
  unfold closeSegment
  split
  · exact ⟨path.dropLast, [], rfl, List.nil_sublist _, by simp⟩
  · split
    · exact ⟨path, [], rfl, List.nil_sublist _, by simp⟩
    · exact ⟨path, part, rfl, List.Sublist.refl _, plain⟩

theorem endsIn_pathState {part : List Char} (path : List (List Char)) (text : List Char)
    (plain : ∀ char ∈ part, slash char = false ∧ queryOrFragment char = false) :
    EndsIn (part ++ text) (pathState path (encode keptInPath part) text) := by
  induction text generalizing path part with
  | nil =>
      rw [List.append_nil]
      exact endsIn_closeSegment path plain
  | cons char text ih =>
      rw [pathState]
      split
      · refine (@ih [] _ (by simp)).of_sublist ?_
        exact (List.sublist_cons_self char text).trans (List.sublist_append_right _ _)
      · split
        · exact (endsIn_closeSegment path plain).of_sublist (List.sublist_append_left _ _)
        · rename_i noSlash noQuery
          have grown : encode keptInPath part ++ encodeChar keptInPath char =
              encode keptInPath (part ++ [char]) := by
            simp [encode]
          have later := @ih (part ++ [char]) path (by
            intro other member
            rcases List.mem_append.mp member with before | last
            · exact plain other before
            · rw [List.mem_singleton.mp last]
              exact ⟨by simpa using noSlash, by simpa using noQuery⟩)
          rwa [← grown, List.append_assoc, List.singleton_append] at later

theorem decode_of_singleDot (single : singleDot segment = true) :
    decode segment = utf8Bytes ['.'] := by
  simp only [singleDot, dots, List.any_cons, List.any_nil, Bool.or_eq_true,
    decide_eq_true_eq] at single
  rcases single with rfl | rfl | rfl | absurd
  · decide
  · decide
  · decide
  · contradiction

theorem decode_of_doubleDot (double : doubleDot segment = true) :
    decode segment = utf8Bytes ['.', '.'] := by
  simp only [doubleDot, dots, List.any_cons, List.any_nil, Bool.or_eq_true, decide_eq_true_eq,
    Bool.false_eq_true, or_false] at double
  rcases double with (rfl | rfl | rfl) | (rfl | rfl | rfl) | (rfl | rfl | rfl)
  all_goals decide

theorem closeSegment_of_name (path : List (List Char)) (single : decode segment ≠ utf8Bytes ['.'])
    (double : decode segment ≠ utf8Bytes ['.', '.']) :
    closeSegment path segment false = path ++ [segment] := by
  rw [closeSegment, if_neg fun dots => double (decode_of_doubleDot dots),
    if_neg fun dot => single (decode_of_singleDot dot)]

end Paths

theorem keptInPath_percent : keptInPath '%' = true := by decide

theorem keptInPath_of_hexValue {char : Char} (digit : (hexValue char).isSome = true) :
    keptInPath char = true := by
  have bounds : 0x30 ≤ char.toNat ∧ char.toNat ≤ 0x66 := by
    unfold hexValue at digit
    simp only [Char.le_def, UInt32.le_iff_toNat_le] at digit
    have same : char.val.toNat = char.toNat := rfl
    have codes : '0'.val.toNat = 0x30 ∧ '9'.val.toNat = 0x39 ∧ 'a'.val.toNat = 0x61 ∧
      'f'.val.toNat = 0x66 ∧ 'A'.val.toNat = 0x41 ∧ 'F'.val.toNat = 0x46 := by decide
    split at digit
    · omega
    · split at digit
      · omega
      · split at digit
        · omega
        · contradiction
  simp only [keptInPath, Bool.and_eq_true, decide_eq_true_eq]
  and_intros
  · omega
  · omega
  all_goals
    rintro rfl
    exact absurd digit (by decide)

/-! ## Texts that are stripped -/

theorem stripped_sublist (text : List Char) : (stripped text).Sublist text := by
  have dropped : (Fields.trim controlOrSpace text).Sublist text :=
    (List.rdropWhile_prefix _ _).sublist.trans (List.dropWhile_sublist _)
  exact List.filter_sublist.trans dropped

theorem controlOrSpace_of_tabOrNewline {char : Char} (blank : tabOrNewline char = true) :
    controlOrSpace char = true := by
  simp only [tabOrNewline, Bool.or_eq_true, decide_eq_true_eq] at blank
  rcases blank with (rfl | rfl) | rfl
  all_goals decide

section Stripping

variable {text front rest : List Char} {solid : Char}

theorem trim_of_head (first : ∀ char ∈ text.head?, controlOrSpace char = false) :
    Fields.trim controlOrSpace text = text.rdropWhile controlOrSpace := by
  cases text with
  | nil => rfl
  | cons char text => rw [Fields.trim, List.dropWhile_cons_of_neg (by simp [first char rfl])]

theorem stripped_eq_self_iff (first : ∀ char ∈ text.head?, controlOrSpace char = false) :
    stripped text = text ↔
      (∀ char ∈ text.getLast?, controlOrSpace char = false) ∧
        ∀ char ∈ text, tabOrNewline char = false := by
  rw [stripped, trim_of_head first]
  constructor
  · intro same
    have trimmed : (text.rdropWhile controlOrSpace).Sublist text :=
      (List.rdropWhile_prefix _ _).sublist
    have filtered := List.filter_sublist (p := fun char => !tabOrNewline char)
      (l := text.rdropWhile controlOrSpace)
    rw [same] at filtered
    have whole := trimmed.antisymm filtered
    rw [whole] at same
    refine ⟨?_, by simpa using List.filter_eq_self.mp same⟩
    intro char last
    have nonempty : text ≠ [] := by
      rintro rfl
      simp at last
    have solid := List.rdropWhile_eq_self_iff.mp whole nonempty
    rw [List.getLast?_eq_getLast_of_ne_nil nonempty] at last
    cases last
    simpa using solid
  · intro ⟨last, plain⟩
    have whole : text.rdropWhile controlOrSpace = text := by
      rw [List.rdropWhile_eq_self_iff]
      intro nonempty
      simp [last _ (List.getLast?_eq_getLast_of_ne_nil nonempty)]
    rw [whole, List.filter_eq_self]
    simpa using plain

/-- What stands before a solid character is not stripped. -/
theorem stripped_append_cons (first : ∀ char ∈ front.head?, controlOrSpace char = false)
    (plain : ∀ char ∈ front, tabOrNewline char = false) (kept : controlOrSpace solid = false) :
    ∃ left, stripped (front ++ solid :: rest) = front ++ solid :: left := by
  have last : (front ++ solid :: rest).rdropWhile controlOrSpace =
      front ++ solid :: rest.rdropWhile controlOrSpace := by
    induction rest using List.reverseRecOn with
    | nil => rw [List.rdropWhile_concat_neg _ _ _ (by simp [kept]), List.rdropWhile_nil]
    | append_singleton rest char ih =>
        rw [← List.cons_append, ← List.append_assoc, List.rdropWhile_concat, List.rdropWhile_concat]
        split
        · exact ih
        · simp
  have head : ∀ char ∈ (front ++ solid :: rest).head?, controlOrSpace char = false := by
    cases front with
    | nil => simpa using kept
    | cons char front => simpa using first
  have noBlank : tabOrNewline solid = false := by
    cases blank : tabOrNewline solid with
    | false => rfl
    | true => rw [← kept, controlOrSpace_of_tabOrNewline blank]
  refine ⟨(rest.rdropWhile controlOrSpace).filter fun char => !tabOrNewline char, ?_⟩
  rw [stripped, trim_of_head head, last, List.filter_append,
    List.filter_eq_self.mpr (by simpa using plain), List.filter_cons_of_pos (by simp [noBlank])]

end Stripping

/-! ## Texts with a scheme -/

theorem splitScheme_eq_some {text scheme rest : List Char}
    (split : splitScheme text = some (scheme, rest)) :
    ∃ front, text = front ++ ':' :: rest ∧ scheme = front.map Char.toLower := by
  unfold splitScheme at split
  split at split
  · contradiction
  · rename_i first text
    split at split
    · split at split
      · rename_i rest' same
        obtain ⟨rfl, rfl⟩ := Prod.mk.inj (Option.some.inj split)
        refine ⟨first :: text.takeWhile schemeChar, ?_, rfl⟩
        rw [List.cons_append, ← same, List.takeWhile_append_dropWhile]
      · contradiction
    · contradiction

/-! ## Names below a directory -/

/-- A text that names one segment of a path, as it stands. -/
@[mk_iff]
structure PlainName (text : List Char) : Prop where
  whole : ∀ char ∈ text, slash char = false ∧ queryOrFragment char = false
  oneLine : ∀ char ∈ text, tabOrNewline char = false
  solidEnd : ∀ char ∈ text.getLast?, controlOrSpace char = false
  unescaped : hasEscape text = false
  schemeless : splitScheme text = none

instance (text : List Char) : Decidable (PlainName text) :=
  have whole := List.decidableBAll (fun char => slash char = false ∧ queryOrFragment char = false) text
  have oneLine := List.decidableBAll (fun char => tabOrNewline char = false) text
  have solidEnd := text.getLast?.decidableForallMem (p := fun char => controlOrSpace char = false)
  @decidable_of_iff _ _ (plainName_iff text).symm
    (@instDecidableAnd _ _ whole (@instDecidableAnd _ _ oneLine (@instDecidableAnd _ _ solidEnd
      instDecidableAnd)))

section Names

variable {browser : Browser} {base url : Url} {first : Char} {rest : List Char}

theorem relative_cons (noSlash : slash first = false) (noQuery : queryOrFragment first = false) :
    browser.relative base (first :: rest) =
      some { base with path := pathState base.path.dropLast [] (first :: rest) } := by
  rw [Browser.relative, noSlash, noQuery, if_neg Bool.false_ne_true, if_neg Bool.false_ne_true]

theorem parse_dot :
    browser.parse base ['.'] = some { base with path := base.path.dropLast ++ [[]] } := by
  have same : stripped ['.'] = ['.'] := by decide
  have schemeless : splitScheme ['.'] = none := by decide
  rw [Browser.parse, same, schemeless]
  simp only
  rw [relative_cons (by decide) (by decide), pathState_of_whole (by simp [slash, queryOrFragment])]
  rfl

theorem parse_of_plainName (solid : controlOrSpace first = false)
    (plain : PlainName (first :: rest)) (noDot : first :: rest ≠ ['.'])
    (noDots : first :: rest ≠ ['.', '.']) :
    browser.parse base (first :: rest) =
      some { base with path := base.path.dropLast ++ [encode keptInPath (first :: rest)] } := by
  have head : ∀ char ∈ (first :: rest).head?, controlOrSpace char = false := by simpa using solid
  have same := (stripped_eq_self_iff head).mpr
    ⟨plain.solidEnd, plain.oneLine⟩
  have decoded := decode_encode_of_no_escape keptInPath_percent plain.unescaped
  obtain ⟨noSlash, noQuery⟩ := plain.whole first (by simp)
  rw [Browser.parse, same, plain.schemeless]
  simp only
  rw [relative_cons noSlash noQuery, pathState_of_whole plain.whole, List.nil_append,
    closeSegment_of_name]
  · rwa [decoded, ne_eq, utf8Bytes_inj]
  · rwa [decoded, ne_eq, utf8Bytes_inj]

/-- No other text leads to a segment that stands for it. -/
theorem plainName_of_parse (solid : controlOrSpace first = false) (noSlash : slash first = false)
    (noQuery : queryOrFragment first = false)
    (schemeless : splitScheme (stripped (first :: rest)) = none)
    (parsed : browser.parse base (first :: rest) = some url)
    (stands : ∀ front segment, url.path = front ++ [segment] →
      decode segment = utf8Bytes (first :: rest)) : PlainName (first :: rest) := by
  have head : ∀ char ∈ (first :: rest).head?, controlOrSpace char = false := by simpa using solid
  obtain ⟨left, kept⟩ := @stripped_append_cons [] rest _ (by simp) (by simp) solid
  have sublist := stripped_sublist (first :: rest)
  simp only [List.nil_append] at kept
  rw [Browser.parse, schemeless] at parsed
  simp only [kept] at parsed
  rw [relative_cons noSlash noQuery] at parsed
  obtain ⟨front, part, same, inside, whole⟩ :=
    @endsIn_pathState [] base.path.dropLast (first :: left) (by simp)
  cases Option.some.inj parsed
  have decoded := stands front _ same
  rw [List.nil_append, ← kept] at inside
  obtain ⟨shorter, strict⟩ := decode_encode_length keptInPath_percent
    (fun _ => keptInPath_of_hexValue) part
  rw [decoded] at shorter strict
  have partSame := eq_of_sublist_of_bytes (inside.trans sublist) shorter
  subst partSame
  have strippedSame := sublist.antisymm inside
  obtain ⟨solidEnd, oneLine⟩ :=
    (stripped_eq_self_iff head).mp strippedSame
  rw [strippedSame] at schemeless
  refine ⟨whole, oneLine, solidEnd, ?_, schemeless⟩
  cases escaped : hasEscape (first :: rest) with
  | false => rfl
  | true => exact absurd (strict escaped) (Nat.lt_irrefl _)

end Names

/-! ## Queries with one parameter -/

section Query

variable {browser : Browser} {name value text : List Char}

theorem formDecode_eq (plain : '+' ∉ text) (decoded : decode text = utf8Bytes value) :
    browser.formDecode text = value := by
  have same : (text.map fun char => if char = '+' then ' ' else char) = text := by
    conv_rhs => rw [← List.map_id text]
    apply List.map_congr_left
    intro char member
    rw [if_neg, id]
    rintro rfl
    exact plain member
  rw [Browser.formDecode, same, decoded, utf8Text_utf8Bytes, Option.getD_some]

theorem searchParameter_single (whole : '&' ∉ name ++ '=' :: text) (equals : '=' ∉ name)
    (named : browser.formDecode name = name) :
    browser.searchParameter ('?' :: name ++ '=' :: text) name = some (browser.formDecode text) := by
  have before : ∀ char ∈ name, decide (char ≠ '=') = true :=
    fun char member => decide_eq_true fun same => equals (same ▸ member)
  have nameFirst : (name ++ '=' :: text).takeWhile (fun char => decide (char ≠ '=')) = name := by
    rw [List.takeWhile_append_of_pos before, List.takeWhile_cons_of_neg (by decide),
      List.append_nil]
  have valueNext :
      ((name ++ '=' :: text).dropWhile fun char => decide (char ≠ '=')).tail = text := by
    rw [List.dropWhile_append_of_pos before, List.dropWhile_cons_of_neg (by decide), List.tail_cons]
  simp only [Browser.searchParameter, List.cons_append, List.splitOn_eq_singleton whole]
  rw [List.filter_cons_of_pos (by simp), List.filter_nil, List.findSome?_singleton, nameFirst,
    if_pos named, valueNext]

end Query

end Filehost.Data.RelativeUrl
