import Filehost.Data.RelativeUrl
import Filehost.Upload.LinkTargets

namespace Filehost.Upload

open Filehost.Data.PercentEncoding Filehost.Data.RelativeUrl Filehost.Http

/-! # Back from the captcha

A browser that must solve a challenge is sent to the page of the captcha, which keeps
the slug in its query, and goes from there to the file. -/

/-- Where the server is reached: below a directory of an origin. -/
structure PublicAddress where
  origin : List Char
  directory : List (List Char)

def PublicAddress.baseUrl (address : PublicAddress) : List Char :=
  address.origin ++ '/' :: address.directory.flatMap (· ++ ['/'])

structure Page where
  origin : List Char
  path : List (List Char)
  search : List Char

def Page.href (page : Page) : List Char :=
  page.origin ++ page.path.flatMap ('/' :: ·) ++ page.search

theorem flatMap_slash (directory : List (List Char)) :
    directory.flatMap ('/' :: ·) ++ ['/'] = '/' :: directory.flatMap (· ++ ['/']) := by
  induction directory with
  | nil => rfl
  | cons name directory ih =>
      rw [List.flatMap_cons, List.flatMap_cons, List.append_assoc, ih]
      simp

/-- The page that `get_file` redirects to. -/
structure CaptchaPage (address : PublicAddress) (slug : List Char) extends Page where
  located : toPage.href = captchaLocation address.baseUrl slug

theorem captchaPage_located (address : PublicAddress) (slug : List Char) :
    Page.href ⟨address.origin, address.directory ++ [captcha],
      '?' :: nextParameter ++ '=' :: utf8PercentEncode slug⟩ =
        captchaLocation address.baseUrl slug := by
  have page : captchaUrl address.baseUrl = address.baseUrl ++ captcha := rfl
  rw [Page.href, captchaLocation, page, PublicAddress.baseUrl, ← flatMap_slash]
  simp only [List.flatMap_append, List.flatMap_cons, List.flatMap_nil, List.append_assoc,
    List.cons_append, List.nil_append, List.append_nil]

def captchaPage (address : PublicAddress) (slug : List Char) : CaptchaPage address slug where
  origin := address.origin
  path := address.directory ++ [captcha]
  search := '?' :: nextParameter ++ '=' :: utf8PercentEncode slug
  located := captchaPage_located address slug

def nextUrl (browser : Browser) (page : Page) : Option Url := do
  let next ← browser.searchParameter page.search nextParameter
  if next = [] then none
  else
    let directory ← browser.parse ⟨some page.origin, page.path⟩ ['.']
    let url ← browser.parse directory next
    if url.origin = some page.origin then some url else none

/-- The file that a request for a URL asks for, its path below the public address. -/
def fileAsked (address : PublicAddress) (url : Url) : Option (List Char) :=
  if address.directory <+: url.path then
    requestedSlug ('/' :: ['/'].intercalate (url.path.drop address.directory.length))
  else none

def ComesBack (browser : Browser) (address : PublicAddress) (slug : List Char) : Prop :=
  ∃ url, nextUrl browser (captchaPage address slug).toPage = some url ∧
    fileAsked address url = some slug

/-- The directory of the page of the captcha. -/
def PublicAddress.url (address : PublicAddress) : Url :=
  ⟨some address.origin, address.directory ++ [[]]⟩

variable {browser : Browser} {address : PublicAddress} {slug : List Char}

theorem nextUrl_captchaPage (nonempty : slug ≠ []) :
    nextUrl browser (captchaPage address slug).toPage =
      (browser.parse address.url slug).bind fun url =>
        if url.origin = some address.origin then some url else none := by
  have absent : ∀ char, ¬LinkChar char → char ∉ utf8PercentEncode slug :=
    fun char other member => other (linkChar_utf8PercentEncode member)
  have ampersand := absent '&' (by simp [LinkChar])
  have plus := absent '+' (by simp [LinkChar])
  have decoded : browser.formDecode (utf8PercentEncode slug) = slug :=
    formDecode_eq plus (utf8Text_eq_some_iff.mp (decodeSegment_utf8PercentEncode slug))
  have found :
      browser.searchParameter (captchaPage address slug).search nextParameter = some slug := by
    rw [captchaPage, searchParameter_single _ (by decide) (formDecode_eq (by decide) (by decide)),
      decoded]
    have nameWhole : '&' ∉ nextParameter := by decide
    simpa [nameWhole] using ampersand
  rw [nextUrl, found]
  simp only [Option.bind_eq_bind, Option.bind_some, if_neg nonempty, captchaPage]
  rw [parse_dot]
  simp only [Option.bind_some, List.dropLast_concat]
  rfl

theorem fileAsked_directory {segment : List Char} {url : Url}
    (below : url.path = address.directory ++ [segment]) :
    fileAsked address url = requestedSlug ('/' :: segment) := by
  rw [fileAsked, below, if_pos (List.prefix_append _ _), List.drop_left, List.intercalate_singleton]

/-- A URL that asks for a file ends in a segment that stands for its slug. -/
theorem fileAsked_eq_some {url : Url} (nonempty : slug ≠ [])
    (asks : fileAsked address url = some slug) {front : List (List Char)} {segment : List Char}
    (ends : url.path = front ++ [segment]) : decode segment = utf8Bytes slug := by
  unfold fileAsked at asks
  split at asks
  · rename_i below
    obtain ⟨rest, same⟩ := below
    rw [← same, List.drop_left] at asks
    obtain ⟨asked, single, decoded⟩ := requestedSlug_eq_some asks
    obtain ⟨path, whole⟩ := eq_of_pathSegments_single single
    have joined : ['/'].intercalate rest = asked := (List.cons.inj path).2
    have stands := utf8Text_eq_some_iff.mp decoded
    match rest with
    | [] =>
        rw [List.intercalate_nil] at joined
        subst joined
        exact absurd (Option.some.inj decoded).symm nonempty
    | [only] =>
        rw [List.intercalate_singleton] at joined
        rw [ends] at same
        have last := List.singleton_inj.mp (List.append_inj' same rfl).2
        rwa [← last, joined]
    | first :: second :: rest =>
        rw [List.intercalate_cons_cons] at joined
        exact absurd (by simp [← joined]) whole
  · contradiction

/-! ## Slugs that come back -/

theorem comesBack_of_plainName {first : Char} {rest : List Char} (same : slug = first :: rest)
    (solid : controlOrSpace first = false) (noDot : slug ≠ ['.']) (noDots : slug ≠ ['.', '.'])
    (free : slug ≠ captcha ∧ slug ≠ captchaScript) (plain : PlainName slug) :
    ComesBack browser address slug := by
  have decoded : decodeSegment (encode keptInPath slug) = some slug := by
    rw [decodeSegment, decode_encode_of_no_escape keptInPath_percent plain.unescaped,
      utf8Text_utf8Bytes]
  have nonempty : slug ≠ [] := by simp [same]
  have encoded : encode keptInPath slug ≠ [] := by
    intro empty
    rw [empty] at decoded
    exact nonempty (Option.some.inj decoded).symm
  have whole : '/' ∉ encode keptInPath slug := by
    intro member
    rcases mem_encode member with inside | percent | digit
    · exact absurd (plain.whole '/' inside).1 (by decide)
    · exact absurd percent (by decide)
    · exact absurd digit (by decide)
  refine ⟨⟨some address.origin, address.directory ++ [encode keptInPath slug]⟩, ?_, ?_⟩
  · subst same
    rw [nextUrl_captchaPage nonempty, parse_of_plainName solid plain noDot noDots]
    simp [PublicAddress.url]
  · rw [fileAsked_directory rfl, requestedSlug_single encoded whole
      (by simpa [decoded] using free.1) (by simpa [decoded] using free.2), decoded]

theorem plainName_of_comesBack {first : Char} {rest : List Char} (same : slug = first :: rest)
    (solid : controlOrSpace first = false) (noSlash : slash first = false)
    (noQuery : queryOrFragment first = false)
    (foreign : ∀ scheme left, splitScheme (stripped slug) = some (scheme, left) →
      scheme ∉ originSchemes)
    (back : ComesBack browser address slug) : PlainName slug := by
  obtain ⟨url, next, asks⟩ := back
  have nonempty : slug ≠ [] := by simp [same]
  rw [nextUrl_captchaPage nonempty] at next
  obtain ⟨parsed, found, shared⟩ := Option.bind_eq_some_iff.mp next
  split at shared
  · rename_i origin
    cases Option.some.inj shared
    cases scheme : splitScheme (stripped slug) with
    | some pair =>
        rw [Browser.parse, scheme] at found
        rw [browser.foreign _ _ _ _ (foreign pair.1 pair.2 scheme) found] at origin
        contradiction
    | none =>
        subst same
        exact plainName_of_parse solid noSlash noQuery scheme found
          fun front segment => fileAsked_eq_some nonempty asks
  · contradiction

section Slugs

variable {settings : SlugSettings} {originalName : List Char}
  {contentTypeSubtype : Option (List Char)} {keepName : Bool} {id : List Char}

/-- `char::is_alphanumeric` has among the ASCII characters the letters and digits. -/
def SlugSettings.AsciiAlphanumeric (settings : SlugSettings) : Prop :=
  ∀ char : Char, char.toNat < 128 → settings.isAlphanumeric char = char.isAlphanum

theorem bounds_of_isAlphanum {char : Char} (alphanumeric : char.isAlphanum = true) :
    0x30 ≤ char.toNat ∧ char.toNat < 128 := by
  delta Char.isAlphanum Char.isAlpha Char.isUpper Char.isLower Char.isDigit at alphanumeric
  simp only [Bool.or_eq_true, Bool.and_eq_true, decide_eq_true_eq, ge_iff_le,
    UInt32.le_iff_toNat_le, Char.toNat_val] at alphanumeric
  have codes : 'A'.toNat = 0x41 ∧ 'Z'.toNat = 0x5a ∧ 'a'.toNat = 0x61 ∧ 'z'.toNat = 0x7a ∧
    '0'.toNat = 0x30 ∧ '9'.toNat = 0x39 := by decide
  omega

theorem prefix_withExtension (base : List Char) (ext : Option (List Char)) :
    base <+: withExtension base ext := by
  cases ext with
  | none => exact List.prefix_refl base
  | some ext => exact List.prefix_append base ('.' :: ext)

theorem subset_slugBase {char : Char} (member : char ∈ id) :
    char ∈ slugBase settings originalName keepName id := by
  unfold slugBase
  split
  · simp [member]
  · exact member

theorem slugBase_char (ascii : settings.AsciiAlphanumeric)
    (alphanumeric : ∀ char ∈ id, char.isAlphanum = true) {char : Char}
    (member : char ∈ slugBase settings originalName keepName id) :
    settings.isAlphanumeric char = true ∨ char = '.' ∨ char = '_' ∨ char = '-' := by
  have drawn : ∀ char ∈ id, settings.isAlphanumeric char = true := by
    intro char inside
    rw [ascii char (bounds_of_isAlphanum (alphanumeric char inside)).2]
    exact alphanumeric char inside
  have stem : ∀ char ∈ sanitizeFilenameStem settings originalName,
      settings.isAlphanumeric char = true ∨ char = '.' ∨ char = '_' ∨ char = '-' := by
    intro char inside
    obtain ⟨original, -, rfl⟩ := List.mem_map.mp inside
    split
    · rename_i kept
      simpa [or_assoc] using kept
    · exact .inr (.inr (.inl rfl))
  unfold slugBase at member
  split at member
  · rcases List.mem_append.mp member with before | after
    · exact stem char before
    · rcases List.mem_cons.mp after with rfl | inside
      · exact .inr (.inr (.inl rfl))
      · exact .inl (drawn char inside)
  · exact .inl (drawn char member)

/-- The characters that mean nothing at the front of a relative URL. -/
structure Inert (char : Char) : Prop where
  solid : controlOrSpace char = false
  noSlash : slash char = false
  noQuery : queryOrFragment char = false
  noColon : char ≠ ':'

theorem inert_of_slugBase (ascii : settings.AsciiAlphanumeric)
    (alphanumeric : ∀ char ∈ id, char.isAlphanum = true) {char : Char}
    (member : char ∈ slugBase settings originalName keepName id) : Inert char := by
  rcases slugBase_char ascii alphanumeric member with letter | rfl | rfl | rfl
  · have small : char.toNat < 128 → char.isAlphanum = true := by
      intro small
      rwa [← ascii char small]
    have other : ∀ mark : Char, mark.toNat < 128 → mark.isAlphanum = false → char ≠ mark := by
      rintro mark low plain rfl
      rw [small low] at plain
      contradiction
    refine ⟨?_, ?_, ?_, other ':' (by decide) (by decide)⟩
    · simp only [controlOrSpace, decide_eq_false_iff_not, not_le]
      by_contra low
      have bounds := bounds_of_isAlphanum (small (by omega))
      omega
    · simp [slash, other '/' (by decide) (by decide), other '\\' (by decide) (by decide)]
    · simp [queryOrFragment, other '?' (by decide) (by decide), other '#' (by decide) (by decide)]
  all_goals exact ⟨by decide, by decide, by decide, by decide⟩

theorem Inert.oneLine {char : Char} (inert : Inert char) : tabOrNewline char = false := by
  cases blank : tabOrNewline char with
  | false => rfl
  | true =>
      have solid := inert.solid
      rw [controlOrSpace_of_tabOrNewline blank] at solid
      contradiction

theorem dot_mem_front {base left front text : List Char} (colonless : ':' ∉ base)
    (same : base ++ '.' :: left = front ++ ':' :: text) : '.' ∈ front := by
  rcases List.append_eq_append_iff.mp same with ⟨more, longer, tail⟩ | ⟨more, longer, tail⟩
  · cases more with
    | nil => cases tail
    | cons mark more =>
        cases tail
        simp [longer]
  · cases more with
    | nil => cases tail
    | cons mark more =>
        cases tail
        exact absurd (by simp [longer]) colonless

/-- Whatever comes before a colon in a slug has the dot of the extension. -/
theorem dot_mem_scheme (inert : ∀ char ∈ slugBase settings originalName keepName id, Inert char)
    {scheme left : List Char}
    (split : splitScheme (stripped
      (buildSlug settings originalName contentTypeSubtype keepName id)) = some (scheme, left)) :
    '.' ∈ scheme := by
  have colonless : ':' ∉ slugBase settings originalName keepName id :=
    fun member => (inert ':' member).noColon rfl
  obtain ⟨front, text, rfl⟩ := splitScheme_eq_some split
  rw [buildSlug_eq] at text
  cases found : slugExtension settings originalName contentTypeSubtype with
  | none =>
      rw [found, withExtension] at text
      have inside := (stripped_sublist (slugBase settings originalName keepName id)).subset
      exact absurd (inside (text ▸ by simp)) colonless
  | some ext =>
      have first : ∀ char ∈ (slugBase settings originalName keepName id).head?,
          controlOrSpace char = false :=
        fun char head => (inert char (List.mem_of_mem_head? head)).solid
      obtain ⟨rest, kept⟩ := @stripped_append_cons _ ext '.' first
        (fun char member => (inert char member).oneLine) (by decide)
      rw [found, withExtension, kept] at text
      exact List.mem_map.mpr ⟨'.', dot_mem_front colonless text, by decide⟩

theorem mem_buildSlug {char : Char} (member : char ∈ slugBase settings originalName keepName id) :
    char ∈ buildSlug settings originalName contentTypeSubtype keepName id := by
  rw [buildSlug_eq]
  exact (prefix_withExtension _ _).subset member

/-- A slug begins as its base does. -/
theorem exists_first_of_buildSlug (contentTypeSubtype : Option (List Char))
    (nonempty : slugBase settings originalName keepName id ≠ []) :
    ∃ first rest, buildSlug settings originalName contentTypeSubtype keepName id = first :: rest ∧
      first ∈ slugBase settings originalName keepName id := by
  obtain ⟨first, base, begins⟩ := List.exists_cons_of_ne_nil nonempty
  obtain ⟨rest, same⟩ := prefix_withExtension (slugBase settings originalName keepName id)
    (slugExtension settings originalName contentTypeSubtype)
  refine ⟨first, base ++ rest, ?_, by simp [begins]⟩
  rw [buildSlug_eq, ← same, begins, List.cons_append]

/-- A browser comes back to the file it asked for if and only if the slug, read as a
relative URL, is the plain name of a segment. -/
theorem captcha_returns_iff {length : Nat} (positive : 1 ≤ length)
    (drawn : drawable length id = true) (ascii : settings.AsciiAlphanumeric) {path : List Char}
    (asked : requestedSlug path =
      some (buildSlug settings originalName contentTypeSubtype keepName id))
    (browser : Browser) (address : PublicAddress) :
    ComesBack browser address (buildSlug settings originalName contentTypeSubtype keepName id) ↔
      PlainName (buildSlug settings originalName contentTypeSubtype keepName id) := by
  obtain ⟨size, alphanumeric⟩ := drawable_iff.mp drawn
  have inert : ∀ char ∈ slugBase settings originalName keepName id, Inert char :=
    fun _ => inert_of_slugBase ascii alphanumeric
  have foreign : ∀ scheme left, splitScheme (stripped
      (buildSlug settings originalName contentTypeSubtype keepName id)) = some (scheme, left) →
      scheme ∉ originSchemes := by
    intro scheme left split listed
    have dotless : ∀ scheme ∈ originSchemes, '.' ∉ scheme := by decide
    exact dotless scheme listed (dot_mem_scheme inert split)
  obtain ⟨letter, inside⟩ : ∃ letter, letter ∈ id := by
    apply List.exists_mem_of_length_pos
    omega
  have drawnInside : letter ∈ slugBase settings originalName keepName id := subset_slugBase inside
  have member : letter ∈ buildSlug settings originalName contentTypeSubtype keepName id :=
    mem_buildSlug drawnInside
  obtain ⟨first, rest, spelled, begins⟩ :=
    exists_first_of_buildSlug contentTypeSubtype (List.ne_nil_of_mem drawnInside)
  have noDot : letter ≠ '.' := by
    rintro rfl
    exact absurd (alphanumeric '.' inside) (by decide)
  have head := inert first begins
  constructor
  · exact plainName_of_comesBack spelled head.solid head.noSlash head.noQuery foreign
  · apply comesBack_of_plainName spelled head.solid
    · intro dot
      exact noDot (by simpa [dot] using member)
    · intro dots
      exact noDot (by simpa [dots] using member)
    · exact requestedSlug_free (by simp [spelled]) asked

end Slugs

def exampleBrowser : Browser where
  absolute := fun _ _ _ => none
  authority := fun _ _ => none
  replaceMalformed := fun _ => []
  foreign := by
    intro _ _ _ _ _ parsed
    contradiction

def exampleAddress : PublicAddress := ⟨"https://files.example".toList, ["shared".toList]⟩

def sourceFile : List Char := "aB3.c#".toList

theorem requestedSlug_sourceFile :
    requestedSlug ('/' :: utf8PercentEncode sourceFile) = some sourceFile :=
  (requestedSlug_utf8PercentEncode_iff (by decide)).mpr (by decide)

/-- A browser takes the end of `aB3.c#` for a fragment, and asks for another file. -/
theorem fragment_loses_file :
    drawable 3 "aB3".toList = true ∧
      buildSlug asciiSlugs "main.c#".toList none false "aB3".toList = sourceFile ∧
      requestedSlug ('/' :: utf8PercentEncode sourceFile) = some sourceFile ∧
      ¬ComesBack exampleBrowser exampleAddress sourceFile := by
  refine ⟨by decide, by decide, requestedSlug_sourceFile, fun back => ?_⟩
  have foreign : ∀ scheme left, splitScheme (stripped sourceFile) = some (scheme, left) →
      scheme ∉ originSchemes := by
    have schemeless : splitScheme (stripped sourceFile) = none := by decide
    intro scheme left split
    rw [schemeless] at split
    contradiction
  have same : sourceFile = 'a' :: "B3.c#".toList := by decide
  have plain := plainName_of_comesBack same (by decide) (by decide) (by decide) foreign back
  have fragment := (plain.whole '#' (by decide)).2
  exact absurd fragment (by decide)

theorem captcha_returns_iff_notes :
    ComesBack exampleBrowser exampleAddress
      (buildSlug asciiSlugs "notes.txt".toList none true "aB3".toList) := by
  have drawn : drawable 3 "aB3".toList = true := by decide
  have ascii : asciiSlugs.AsciiAlphanumeric := fun _ _ => rfl
  have asked : requestedSlug ('/' :: utf8PercentEncode
      (buildSlug asciiSlugs "notes.txt".toList none true "aB3".toList)) =
        some (buildSlug asciiSlugs "notes.txt".toList none true "aB3".toList) :=
    (requestedSlug_utf8PercentEncode_iff (by decide)).mpr (by decide)
  exact (captcha_returns_iff (by decide) drawn ascii asked exampleBrowser exampleAddress).mpr
    (by decide)

end Filehost.Upload
