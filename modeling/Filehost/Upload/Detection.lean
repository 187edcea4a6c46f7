import Filehost.Data.Fields
import Filehost.Upload.Serving

namespace Filehost.Upload

open Filehost.Data Filehost.Http Filehost.Ip Filehost.Store

/-! # Sniffing a file

The signature decides, then a few formats whose signature is not fixed, and only then
the extension. -/

/-- An entry of the table of signatures; the default one says nothing. -/
structure FileType where
  isDefault : Bool
  extensions : List (List Char)
  mediaTypes : List (List Char)

/-- The table of signatures, and the guesses from an extension. -/
structure FileTypes where
  fromBytes : List UInt8 → FileType
  fromExtension : List Char → List FileType
  fromExt : List Char → Option Mime

def sniffLimit : Nat := 1024

def riff : List UInt8 := [0x52, 0x49, 0x46, 0x46]

def webp : List UInt8 := [0x57, 0x45, 0x42, 0x50]

def ebml : List UInt8 := [0x1a, 0x45, 0xdf, 0xa3]

def webm : List UInt8 := [0x77, 0x65, 0x62, 0x6d]

def ftyp : List UInt8 := [0x66, 0x74, 0x79, 0x70]

/-- `bytes.get(start..start + 4)`. -/
def four (bytes : List UInt8) (start : Nat) : List UInt8 := (bytes.drop start).take 4

def wellKnown (bytes : List UInt8) : Option String :=
  if riff <+: bytes ∧ four bytes 8 = webp then some "image/webp"
  else if ebml <+: bytes ∧ webm <:+: bytes then some "video/webm"
  else if four bytes 4 = ftyp then some "video/mp4"
  else none

def sniffWellKnown (parser : MimeParser) (bytes : List UInt8) : Option Mime :=
  (wellKnown bytes).bind fun mime => parser.parse mime.toList

/-- The guesses from its extensions go before the media types of an entry. -/
def resolveMime (types : FileTypes) (parser : MimeParser) (fileType : FileType) : Option Mime :=
  (fileType.extensions.findSome? types.fromExt).or
    ((fileType.mediaTypes.head?.bind parser.parse).filter fun mime => !mime.isOctetStream)

/-- `readable` is false where the file cannot be opened or read. -/
def detectContentType (types : FileTypes) (parser : MimeParser) (readable : Bool)
    (path : List Char) (content : List UInt8) : Option Mime :=
  if !readable then none
  else
    let bytes := content.take sniffLimit
    let byContent := types.fromBytes bytes
    if !byContent.isDefault then resolveMime types parser byContent
    else
      (sniffWellKnown parser bytes).or
        (resolveMime types parser
          (((extension path).bind fun ext => (types.fromExtension ext).head?).getD byContent))

/-- The random part of a temporary file's name. -/
structure TempName where
  text : List Char
  alphanumeric : ∀ char ∈ text, char.isAlphanum = true

def makeTempfile (dir : List Char) (random : TempName) (extSuffix : Option (List Char)) : List Char :=
  dir ++ '/' :: ".tmp".toList ++ random.text ++ extSuffix.getD []

/-- The bytes are enough to tell the type of the file. -/
def TellsType (types : FileTypes) (parser : MimeParser) (bytes : List UInt8) : Prop :=
  (types.fromBytes bytes).isDefault = false ∨ (sniffWellKnown parser bytes).isSome = true

variable {types : FileTypes} {parser : MimeParser} {content other : List UInt8}

/-- Only the first bytes and the extension count, and the extension only where the
bytes do not tell. -/
theorem detectContentType_congr {readable : Bool} {path otherPath : List Char}
    (same : content.take sniffLimit = other.take sniffLimit)
    (named : extension path = extension otherPath ∨ TellsType types parser (content.take sniffLimit)) :
    detectContentType types parser readable path content =
      detectContentType types parser readable otherPath other := by
  unfold detectContentType
  rw [← same]
  cases readable with
  | false => rfl
  | true =>
      rcases named with alike | signature | sniffed
      · rw [alike]
      · simp [signature]
      · obtain ⟨mime, known⟩ := Option.isSome_iff_exists.mp sniffed
        simp [known]

/-! ## The name of the temporary file -/

section Names

variable {name front ext : List Char}

/-- An extension is a piece of one path component. -/
theorem extension_plain (found : extension name = some ext) : '.' ∉ ext ∧ '/' ∉ ext := by
  obtain ⟨component, named, after⟩ := Option.bind_eq_some_iff.mp found
  have whole : '/' ∉ component := by
    unfold fileName at named
    split at named
    · contradiction
    · contradiction
    · rename_i last
      cases named
      exact Fields.not_mem_of_mem_splitOn (List.mem_filter.mp (List.mem_of_getLast? last)).1
  have tail : ext = (component.reverse.takeWhile (· ≠ '.')).reverse := by
    simp only [splitAtLastDot] at after
    split at after
    · exact (Option.some.inj after).symm
    · contradiction
  rw [tail]
  constructor
  · intro dotted
    have plain := List.all_eq_true.mp List.all_takeWhile _ (List.mem_reverse.mp dotted)
    simp at plain
  · intro slashed
    exact whole (List.mem_reverse.mp ((List.takeWhile_sublist _).subset (List.mem_reverse.mp slashed)))

theorem fileName_append (whole : '/' ∉ name) (named : name ≠ [])
    (current : name ≠ ['.']) (parent : name ≠ ['.', '.']) :
    fileName (front ++ '/' :: name) = some name := by
  have last : ((front ++ '/' :: name).splitOn '/').filter
      (fun part => part ≠ [] && part ≠ ['.']) =
      (front.splitOn '/').filter (fun part => part ≠ [] && part ≠ ['.']) ++ [name] := by
    rw [List.splitOn_append_cons_self, List.splitOn_eq_singleton whole, List.filter_append]
    simp [named, current]
  unfold fileName
  rw [last, List.getLast?_concat]
  split
  · contradiction
  · rename_i dots
    exact absurd (Option.some.inj dots) parent
  · rename_i found
    exact found.symm

theorem splitAtLastDot_append (led : front ≠ []) (plain : '.' ∉ ext) :
    splitAtLastDot (front ++ '.' :: ext) = (front, some ext) := by
  have inside : ∀ char ∈ ext.reverse, decide (char ≠ '.') = true := fun char member =>
    decide_eq_true fun dot => plain (dot ▸ List.mem_reverse.mp member)
  have reversed : (front ++ '.' :: ext).reverse = ext.reverse ++ '.' :: front.reverse := by simp
  have after : (front ++ '.' :: ext).reverse.takeWhile (· ≠ '.') = ext.reverse := by
    rw [reversed, List.takeWhile_append_of_pos inside]
    simp
  have before : ((front ++ '.' :: ext).reverse.dropWhile (· ≠ '.')).tail = front.reverse := by
    rw [reversed, List.dropWhile_append_of_pos inside]
    simp
  simp only [splitAtLastDot, after, before, List.reverse_reverse]
  simp [led]

theorem splitAtLastDot_hidden (plain : '.' ∉ name) :
    splitAtLastDot ('.' :: name) = ('.' :: name, none) := by
  have inside : ∀ char ∈ name.reverse, decide (char ≠ '.') = true := fun char member =>
    decide_eq_true fun dot => plain (dot ▸ List.mem_reverse.mp member)
  have before : (('.' :: name).reverse.dropWhile (· ≠ '.')).tail = [] := by
    rw [List.reverse_cons, List.dropWhile_append_of_pos inside]
    simp
  simp only [splitAtLastDot, before]
  simp

theorem TempName.plain (random : TempName) {char : Char} (special : char.isAlphanum = false) :
    char ∉ random.text := fun member => by
  have alphanumeric := random.alphanumeric char member
  rw [special] at alphanumeric
  contradiction

/-- The temporary file keeps the extension of the name it was sent under. -/
theorem extension_makeTempfile (dir : List Char) (random : TempName) (sentAs : Option (List Char)) :
    extension (makeTempfile dir random ((sentAs.bind extension).map fun ext => '.' :: ext)) =
      sentAs.bind extension := by
  have unslashed : '/' ∉ random.text := random.plain (by decide)
  have undotted : '.' ∉ random.text := random.plain (by decide)
  cases known : sentAs.bind extension with
  | none =>
      have named : fileName (makeTempfile dir random none) =
          some ('.' :: 't' :: 'm' :: 'p' :: random.text) := by
        rw [makeTempfile]
        have joined : fileName (dir ++ '/' :: '.' :: 't' :: 'm' :: 'p' :: random.text) = some _ :=
          fileName_append (by simp [unslashed]) (by simp) (by simp) (by simp)
        simpa using joined
      rw [Option.map_none, extension, named, Option.bind_some, splitAtLastDot_hidden (by simp [undotted])]
  | some ext =>
      obtain ⟨originalName, -, found⟩ := Option.bind_eq_some_iff.mp known
      obtain ⟨plain, whole⟩ := extension_plain found
      have named : fileName (makeTempfile dir random (some ('.' :: ext))) =
          some (('.' :: 't' :: 'm' :: 'p' :: random.text) ++ '.' :: ext) := by
        rw [makeTempfile]
        have joined : fileName (dir ++ '/' :: (('.' :: 't' :: 'm' :: 'p' :: random.text) ++ '.' :: ext)) =
            some _ :=
          fileName_append (by simp [unslashed, whole]) (by simp) (by simp) (by simp)
        simpa using joined
      rw [Option.map_some, extension, named, Option.bind_some, splitAtLastDot_append (by simp) plain]

end Names

end Filehost.Upload
