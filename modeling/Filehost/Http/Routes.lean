import Filehost.Data.PercentEncoding
import Filehost.Http.Responses

namespace Filehost.Http

open Filehost.Data

/-! # Routes

The services of the server are tried in the order they are registered in.  A path is
cut at its slashes before its segments are decoded. -/

inductive Method where
  | get
  | post
  | delete
deriving DecidableEq

inductive Handler where
  | index
  | upload
  | captchaPage
  | captchaJs
  | captchaChallenge
  | captchaVerify
  | getFile
  | admin
deriving DecidableEq

inductive Segment where
  | literal (text : List Char)
  | parameter

/-- A scope takes every method, and any path below its own. -/
structure Route where
  method : Option Method
  pattern : List Segment
  handler : Handler

def captcha : List Char := "captcha".toList

def captchaScript : List Char := "captcha.js".toList

def routes : List Route :=
  [⟨some .get, [], .index⟩,
    ⟨some .post, [], .upload⟩,
    ⟨some .get, [.literal captcha], .captchaPage⟩,
    ⟨some .get, [.literal captchaScript], .captchaJs⟩,
    ⟨some .get, [.literal captcha, .literal "challenge".toList], .captchaChallenge⟩,
    ⟨some .post, [.literal captcha, .literal "verify".toList], .captchaVerify⟩,
    ⟨some .get, [.parameter], .getFile⟩,
    ⟨none, [.literal "admin".toList], .admin⟩]

def decodeSegment (segment : List Char) : Option (List Char) :=
  PercentEncoding.utf8Text (PercentEncoding.decode segment)

/-- The parameters of a path that has this pattern. -/
def matchSegments (scope : Bool) : List Segment → List (List Char) → Option (List (List Char))
  | [], [] => some []
  | [], _ :: _ => if scope then some [] else none
  | .literal text :: pattern, segment :: path =>
      if decodeSegment segment = some text then matchSegments scope pattern path else none
  | .parameter :: pattern, segment :: path =>
      if segment = [] then none
      else (matchSegments scope pattern path).map fun parameters => segment :: parameters
  | _ :: _, [] => none

def pathSegments : List Char → Option (List (List Char))
  | ['/'] => some []
  | '/' :: path => some (path.splitOn '/')
  | _ => none

def Route.accepts (route : Route) (method : Method) (segments : List (List Char)) :
    Option (Handler × List (List Char)) :=
  if route.method = none ∨ route.method = some method then
    (matchSegments route.method.isNone route.pattern segments).map fun parameters =>
      (route.handler, parameters)
  else none

/-- The handler of a request and the parameters of its path, not decoded yet. -/
def dispatch (method : Method) (path : List Char) : Option (Handler × List (List Char)) := do
  let segments ← pathSegments path
  routes.findSome? fun route => route.accepts method segments

/-- The file that a request for a path asks for. -/
def requestedSlug (path : List Char) : Option (List Char) :=
  match dispatch .get path with
  | some (.getFile, [slug]) => decodeSegment slug
  | _ => none

theorem pathSegments_single {segment : List Char} (nonempty : segment ≠ [])
    (whole : '/' ∉ segment) : pathSegments ('/' :: segment) = some [segment] := by
  unfold pathSegments
  split
  · rename_i same
    cases same
    contradiction
  · rename_i path _ same
    cases same
    rw [List.splitOn_eq_singleton whole]
  · rename_i _ other
    exact absurd rfl (other segment)

theorem requestedSlug_single {segment : List Char} (nonempty : segment ≠ [])
    (whole : '/' ∉ segment) (page : decodeSegment segment ≠ some captcha)
    (script : decodeSegment segment ≠ some captchaScript) :
    requestedSlug ('/' :: segment) = decodeSegment segment := by
  simp [requestedSlug, dispatch, pathSegments_single nonempty whole, routes, Route.accepts,
    matchSegments, page, script, nonempty]

theorem requestedSlug_of_route {segment : List Char} (nonempty : segment ≠ [])
    (whole : '/' ∉ segment)
    (taken : decodeSegment segment = some captcha ∨ decodeSegment segment = some captchaScript) :
    requestedSlug ('/' :: segment) = none := by
  rcases taken with page | script
  · simp [requestedSlug, dispatch, pathSegments_single nonempty whole, routes, Route.accepts,
      matchSegments, page]
  · have other : captchaScript ≠ captcha := by decide
    simp [requestedSlug, dispatch, pathSegments_single nonempty whole, routes, Route.accepts,
      matchSegments, script, other]

/-- One route serves files. -/
theorem accepts_getFile {route : Route} (registered : route ∈ routes) {method : Method}
    {segments : List (List Char)} {slug : List Char}
    (accepted : route.accepts method segments = some (.getFile, [slug])) : segments = [slug] := by
  unfold Route.accepts at accepted
  split at accepted
  · obtain ⟨parameters, matched, same⟩ := Option.map_eq_some_iff.mp accepted
    obtain ⟨handler, rfl⟩ := Prod.mk.inj same
    have files : route = ⟨some .get, [.parameter], .getFile⟩ := by
      simp only [routes, List.mem_cons, List.not_mem_nil, or_false] at registered
      rcases registered with rfl | rfl | rfl | rfl | rfl | rfl | rfl | rfl
      all_goals first | rfl | contradiction
    subst files
    match segments with
    | [] => contradiction
    | [segment] =>
        simp only [matchSegments] at matched
        split at matched
        · contradiction
        · simpa using matched
    | _ :: _ :: _ => simp [matchSegments] at matched
  · contradiction

/-- Only a path of one segment asks for a file. -/
theorem requestedSlug_eq_some {path slug : List Char} (asks : requestedSlug path = some slug) :
    ∃ segment, pathSegments path = some [segment] ∧ decodeSegment segment = some slug := by
  unfold requestedSlug at asks
  split at asks
  · rename_i segment dispatched
    obtain ⟨segments, cut, found⟩ := Option.bind_eq_some_iff.mp dispatched
    obtain ⟨route, registered, accepted⟩ := List.exists_of_findSome?_eq_some found
    rw [accepts_getFile registered accepted] at cut
    exact ⟨segment, cut, asks⟩
  · contradiction

theorem eq_of_pathSegments_single {path segment : List Char}
    (single : pathSegments path = some [segment]) : path = '/' :: segment ∧ '/' ∉ segment := by
  unfold pathSegments at single
  split at single
  · cases Option.some.inj single
  · rename_i rest _
    have cut := Option.some.inj single
    have same : ['/'].intercalate (rest.splitOn '/') = rest := List.intercalate_splitOn '/'
    rw [cut, List.intercalate_singleton] at same
    subst same
    refine ⟨rfl, fun member => ?_⟩
    obtain ⟨front, back, rfl⟩ := List.append_of_mem member
    have longer := congrArg List.length cut
    have first := List.length_pos_iff.mpr (List.splitOn_ne_nil '/' front)
    have second := List.length_pos_iff.mpr (List.splitOn_ne_nil '/' back)
    rw [List.splitOn_append_cons_self, List.length_append, List.length_singleton] at longer
    omega
  · contradiction

/-- A file that is asked for does not have the name of a page of the captcha. -/
theorem requestedSlug_free {path slug : List Char} (nonempty : slug ≠ [])
    (asks : requestedSlug path = some slug) : slug ≠ captcha ∧ slug ≠ captchaScript := by
  obtain ⟨segment, single, decoded⟩ := requestedSlug_eq_some asks
  obtain ⟨rfl, whole⟩ := eq_of_pathSegments_single single
  have solid : segment ≠ [] := by
    rintro rfl
    exact nonempty (Option.some.inj decoded).symm
  rw [← not_or]
  intro taken
  rw [requestedSlug_of_route solid whole (by rwa [decoded, Option.some.injEq, Option.some.injEq])]
    at asks
  contradiction

/-! ## Links -/

/-- The path of a link below the public address of the server. -/
def requestPath (baseUrl link : List Char) : List Char := '/' :: link.drop baseUrl.length

theorem requestPath_linkTo (baseUrl slug : List Char) :
    requestPath baseUrl (linkTo baseUrl slug) = '/' :: utf8PercentEncode slug := by
  rw [requestPath, linkTo, List.drop_left]

theorem utf8PercentEncode_eq (text : List Char) :
    utf8PercentEncode text = PercentEncoding.encode keptInPathSegment text := rfl

theorem decodeSegment_utf8PercentEncode (text : List Char) :
    decodeSegment (utf8PercentEncode text) = some text := by
  rw [decodeSegment, utf8PercentEncode_eq, PercentEncoding.decode_encode rfl,
    PercentEncoding.utf8Text_utf8Bytes]

def LinkChar (char : Char) : Prop :=
  char.isAlphanum = true ∨ char = '-' ∨ char = '.' ∨ char = '_' ∨ char = '~' ∨ char = '%'

theorem linkChar_hexDigitUpper {digit : Nat} (small : digit < 16) :
    LinkChar (hexDigitUpper digit) := by
  have all : ∀ digit < 16, (hexDigitUpper digit).isAlphanum = true := by decide
  exact .inl (all digit small)

theorem linkChar_utf8PercentEncode {text : List Char} {char : Char}
    (member : char ∈ utf8PercentEncode text) : LinkChar char := by
  obtain ⟨original, -, inside⟩ := List.mem_flatMap.mp member
  split at inside
  · rename_i kept
    rw [List.mem_singleton.mp inside]
    simp only [keptInPathSegment, Bool.or_eq_true, decide_eq_true_eq] at kept
    rcases kept with (((alphanumeric | rfl) | rfl) | rfl) | rfl
    · exact .inl alphanumeric
    all_goals simp [LinkChar]
  · obtain ⟨byte, -, digit⟩ := List.mem_flatMap.mp inside
    have bound := byte.toNat_lt
    simp only [percentEncodeByte, List.mem_cons, List.not_mem_nil, or_false] at digit
    rcases digit with rfl | rfl | rfl
    · simp [LinkChar]
    · exact linkChar_hexDigitUpper (by omega)
    · exact linkChar_hexDigitUpper (by omega)

theorem slash_not_mem_utf8PercentEncode (text : List Char) : '/' ∉ utf8PercentEncode text := by
  intro member
  have other : ¬LinkChar '/' := by simp [LinkChar]
  exact other (linkChar_utf8PercentEncode member)

theorem utf8PercentEncode_ne_nil {text : List Char} (nonempty : text ≠ []) :
    utf8PercentEncode text ≠ [] := by
  intro empty
  have decoded := decodeSegment_utf8PercentEncode text
  rw [empty] at decoded
  exact nonempty (Option.some.inj decoded).symm

/-- A link leads to its file unless a page of the captcha has its path. -/
theorem requestedSlug_utf8PercentEncode_iff {slug : List Char} (nonempty : slug ≠ []) :
    requestedSlug ('/' :: utf8PercentEncode slug) = some slug ↔
      slug ≠ captcha ∧ slug ≠ captchaScript := by
  have decoded := decodeSegment_utf8PercentEncode slug
  have whole := slash_not_mem_utf8PercentEncode slug
  have encoded := utf8PercentEncode_ne_nil nonempty
  by_cases taken : slug = captcha ∨ slug = captchaScript
  · rw [requestedSlug_of_route encoded whole
      (by rwa [decoded, Option.some.injEq, Option.some.injEq])]
    simp only [reduceCtorEq, ne_eq, false_iff]
    rcases taken with page | script
    · exact fun free => free.1 page
    · exact fun free => free.2 script
  · obtain ⟨page, script⟩ := not_or.mp taken
    rw [requestedSlug_single encoded whole (by simpa [decoded]) (by simpa [decoded]), decoded]
    simp [page, script]

end Filehost.Http
