import Filehost.Http.Routes
import Filehost.Upload.Slug

namespace Filehost.Upload

open Filehost.Http

/-! # Where links lead

A slug is a random string, maybe with the stem of the file's name before it, and
maybe with an extension behind it. -/

def keepsStem (settings : SlugSettings) (originalName : List Char) (keepName : Bool) : Bool :=
  keepName && sanitizeFilenameStem settings originalName ≠ []

def slugBase (settings : SlugSettings) (originalName : List Char) (keepName : Bool)
    (id : List Char) : List Char :=
  if keepsStem settings originalName keepName then
    sanitizeFilenameStem settings originalName ++ '_' :: id
  else id

def slugExtension (settings : SlugSettings) (originalName : List Char)
    (contentTypeSubtype : Option (List Char)) : Option (List Char) :=
  ((extension originalName).filter (usableExtension settings)).or
    (if settings.autoFileExt then contentTypeSubtype.filter (usableExtension settings) else none)

def withExtension (base : List Char) : Option (List Char) → List Char
  | some ext => base ++ '.' :: ext
  | none => base

variable {settings : SlugSettings} {originalName : List Char}
  {contentTypeSubtype : Option (List Char)} {keepName : Bool} {id : List Char}

theorem buildSlug_eq (settings : SlugSettings) (originalName : List Char)
    (contentTypeSubtype : Option (List Char)) (keepName : Bool) (id : List Char) :
    buildSlug settings originalName contentTypeSubtype keepName id =
      withExtension (slugBase settings originalName keepName id)
        (slugExtension settings originalName contentTypeSubtype) := by
  simp only [buildSlug, slugBase, keepsStem, slugExtension, withExtension]
  rfl

theorem drawable_iff {length : Nat} {draw : List Char} :
    drawable length draw = true ↔ draw.length = length ∧ ∀ char ∈ draw, char.isAlphanum = true := by
  simp [drawable]

theorem slugBase_ne_nil (nonempty : id ≠ []) : slugBase settings originalName keepName id ≠ [] := by
  unfold slugBase
  split
  · simp
  · exact nonempty

theorem buildSlug_ne_nil (nonempty : id ≠ []) :
    buildSlug settings originalName contentTypeSubtype keepName id ≠ [] := by
  rw [buildSlug_eq]
  cases slugExtension settings originalName contentTypeSubtype with
  | none => exact slugBase_ne_nil nonempty
  | some ext => simp [withExtension]

/-- The random string spells the name of a page of the captcha. -/
def TakesRoute (settings : SlugSettings) (originalName : List Char)
    (contentTypeSubtype : Option (List Char)) (keepName : Bool) (id : List Char) : Prop :=
  id = captcha ∧ keepsStem settings originalName keepName = false ∧
    (slugExtension settings originalName contentTypeSubtype = none ∨
      slugExtension settings originalName contentTypeSubtype = some "js".toList)

theorem withExtension_eq_captcha_iff {ext : Option (List Char)}
    (alphanumeric : ∀ char ∈ id, char.isAlphanum = true) :
    withExtension id ext = captcha ∨ withExtension id ext = captchaScript ↔
      id = captcha ∧ (ext = none ∨ ext = some "js".toList) := by
  have dotless : '.' ∉ id := fun member => absurd (alphanumeric '.' member) (by decide)
  cases ext with
  | none =>
      have other : id ≠ captchaScript := by
        rintro rfl
        exact dotless (by decide)
      simp [withExtension, other]
  | some ext =>
      have noPage : id ++ '.' :: ext ≠ captcha := by
        intro same
        have member : '.' ∈ captcha := same ▸ (by simp)
        exact absurd member (by decide)
      have script : id ++ '.' :: ext = captchaScript ↔ id = captcha ∧ ext = "js".toList := by
        constructor
        · intro same
          have parts : captchaScript = captcha ++ '.' :: "js".toList := by decide
          have plain : ∀ char ∈ id, decide (char ≠ '.') = true :=
            fun char member => decide_eq_true fun dot => dotless (dot ▸ member)
          have captchaPlain : ∀ char ∈ captcha, decide (char ≠ '.') = true :=
            List.all_eq_true.mp (by decide)
          rw [parts] at same
          have front := congrArg (List.takeWhile fun char => decide (char ≠ '.')) same
          rw [List.takeWhile_append_of_pos plain, List.takeWhile_append_of_pos captchaPlain,
            List.takeWhile_cons_of_neg (by decide), List.takeWhile_cons_of_neg (by decide),
            List.append_nil, List.append_nil] at front
          rw [front] at same
          exact ⟨front, (List.cons.inj (List.append_cancel_left same)).2⟩
        · rintro ⟨rfl, rfl⟩
          rfl
      simp [withExtension, noPage, script]

theorem buildSlug_takes_iff (alphanumeric : ∀ char ∈ id, char.isAlphanum = true) :
    (buildSlug settings originalName contentTypeSubtype keepName id = captcha ∨
      buildSlug settings originalName contentTypeSubtype keepName id = captchaScript) ↔
    TakesRoute settings originalName contentTypeSubtype keepName id := by
  rw [buildSlug_eq, slugBase, TakesRoute]
  cases kept : keepsStem settings originalName keepName with
  | true =>
      have underscore : ∀ ext, '_' ∈ withExtension
          (sanitizeFilenameStem settings originalName ++ '_' :: id) ext := by
        intro ext
        cases ext <;> simp [withExtension]
      have absent : '_' ∉ captcha ∧ '_' ∉ captchaScript := by decide
      simp only [↓reduceIte, Bool.true_eq_false, false_and, and_false, iff_false, not_or]
      exact ⟨fun same => absent.1 (same ▸ underscore _), fun same => absent.2 (same ▸ underscore _)⟩
  | false =>
      simp only [Bool.false_eq_true, ↓reduceIte, true_and]
      exact withExtension_eq_captcha_iff alphanumeric

instance : Decidable (TakesRoute settings originalName contentTypeSubtype keepName id) :=
  inferInstanceAs (Decidable (_ ∧ _ ∧ (_ ∨ _)))

/-- A link of one path segment, in plain characters, that asks for the file. -/
structure LeadsBack (baseUrl slug : List Char) : Prop where
  plain : ∀ char ∈ utf8PercentEncode slug, LinkChar char
  single : utf8PercentEncode slug ≠ [] ∧ '/' ∉ utf8PercentEncode slug
  asks : requestedSlug (requestPath baseUrl (linkTo baseUrl slug)) = some slug

/-- The link of an upload leads back to its file, unless the random string and the
extension spell a page of the captcha. -/
theorem link_leads_back_iff {length : Nat} (positive : 1 ≤ length)
    (drawn : drawable length id = true) (baseUrl : List Char) :
    LeadsBack baseUrl (buildSlug settings originalName contentTypeSubtype keepName id) ↔
      ¬TakesRoute settings originalName contentTypeSubtype keepName id := by
  obtain ⟨size, alphanumeric⟩ := drawable_iff.mp drawn
  have nonempty : id ≠ [] := by
    rintro rfl
    rw [← size] at positive
    contradiction
  have slugNonempty : buildSlug settings originalName contentTypeSubtype keepName id ≠ [] :=
    buildSlug_ne_nil nonempty
  rw [← buildSlug_takes_iff alphanumeric, not_or,
    ← requestedSlug_utf8PercentEncode_iff slugNonempty, ← requestPath_linkTo baseUrl]
  constructor
  · exact fun leads => leads.asks
  · intro asks
    exact ⟨fun _ => linkChar_utf8PercentEncode, ⟨utf8PercentEncode_ne_nil slugNonempty,
      slash_not_mem_utf8PercentEncode _⟩, asks⟩

def asciiSlugs : SlugSettings := ⟨false, 10, Char.isAlphanum⟩

def exampleBase : List Char := "https://files.example/".toList

/-- A file whose random string is `captcha` is hidden by the page of that name. -/
theorem captcha_hides_file :
    drawable 7 captcha = true ∧
      buildSlug asciiSlugs "readme".toList none false captcha = captcha ∧
      ¬LeadsBack exampleBase (buildSlug asciiSlugs "readme".toList none false captcha) := by
  have slug : buildSlug asciiSlugs "readme".toList none false captcha = captcha := by decide
  refine ⟨by decide, slug, fun leads => ?_⟩
  have asks := leads.asks
  rw [slug, requestPath_linkTo, requestedSlug_utf8PercentEncode_iff (by decide)] at asks
  exact asks.1 rfl

theorem link_leads_back_iff_notes :
    LeadsBack exampleBase (buildSlug asciiSlugs "notes.txt".toList none true "aB3".toList) :=
  (@link_leads_back_iff _ _ _ _ _ 3 (by decide) (by decide) exampleBase).mpr (by decide)

end Filehost.Upload
