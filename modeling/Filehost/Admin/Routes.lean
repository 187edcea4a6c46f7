import Filehost.Data.Selections
import Filehost.Http.Routes

namespace Filehost.Admin

open Filehost.Data Filehost.Http

/-! # The routes of the admin server

The services below `/admin`, in the order they are registered in.  A pattern ends in a
parameter of one segment, or in one that takes the rest of the path with its slashes. -/

inductive AdminHandler where
  | stats
  | listUploads
  | deleteUpload
  | deleteUploadBySlug
  | deleteUploadByIp
  | ipStats
  | listBannedIps
  | addBannedIp
  | removeBannedIp
  | listBannedFilenames
  | addBannedFilename
  | removeBannedFilename
  | listBannedMimes
  | addBannedMime
  | removeBannedMime
  | listBannedHashes
  | addBannedHash
  | removeBannedHash
  | listBannedUserAgents
  | addBannedUserAgent
  | removeBannedUserAgent
deriving DecidableEq

inductive Ending where
  | nothing
  | single
  | rest
deriving DecidableEq

structure AdminRoute where
  method : Method
  literals : List (List Char)
  ending : Ending
  handler : AdminHandler
deriving DecidableEq

def service (method : Method) (literals : List String) (ending : Ending) (handler : AdminHandler) :
    AdminRoute := ⟨method, literals.map String.toList, ending, handler⟩

def configure : List AdminRoute :=
  [service .get ["stats"] .nothing .stats,
    service .get ["uploads"] .nothing .listUploads,
    service .delete ["uploads"] .single .deleteUpload,
    service .delete ["uploads", "slug"] .single .deleteUploadBySlug,
    service .delete ["uploads", "ip"] .single .deleteUploadByIp,
    service .get ["ip-stats"] .single .ipStats,
    service .get ["bans", "ips"] .nothing .listBannedIps,
    service .post ["bans", "ips"] .nothing .addBannedIp,
    service .delete ["bans", "ips"] .single .removeBannedIp,
    service .get ["bans", "filenames"] .nothing .listBannedFilenames,
    service .post ["bans", "filenames"] .nothing .addBannedFilename,
    service .delete ["bans", "filenames"] .rest .removeBannedFilename,
    service .get ["bans", "mimes"] .nothing .listBannedMimes,
    service .post ["bans", "mimes"] .nothing .addBannedMime,
    service .delete ["bans", "mimes"] .rest .removeBannedMime,
    service .get ["bans", "hashes"] .nothing .listBannedHashes,
    service .post ["bans", "hashes"] .nothing .addBannedHash,
    service .delete ["bans", "hashes"] .single .removeBannedHash,
    service .get ["bans", "user-agents"] .nothing .listBannedUserAgents,
    service .post ["bans", "user-agents"] .nothing .addBannedUserAgent,
    service .delete ["bans", "user-agents"] .rest .removeBannedUserAgent]

/-- What is left of a path behind these segments. -/
def dropLiterals : List (List Char) → List (List Char) → Option (List (List Char))
  | [], path => some path
  | _ :: _, [] => none
  | literal :: literals, segment :: path =>
      if decodeSegment segment = some literal then dropLiterals literals path else none

/-- The parameter, not decoded yet. -/
def Ending.read : Ending → List (List Char) → Option (Option (List Char))
  | .nothing, [] => some none
  | .single, [segment] => if segment = [] then none else some (some segment)
  | .rest, segment :: path => some (some (['/'].intercalate (segment :: path)))
  | _, _ => none

def AdminRoute.accepts (route : AdminRoute) (method : Method) (segments : List (List Char)) :
    Option (AdminHandler × Option (List Char)) :=
  if route.method = method then
    ((dropLiterals route.literals segments).bind route.ending.read).map fun parameter =>
      (route.handler, parameter)
  else none

def dispatchAmong (services : List AdminRoute) (method : Method) (segments : List (List Char)) :
    Option (AdminHandler × Option (List Char)) :=
  services.findSome? fun route => route.accepts method segments

/-- The handler of a request to the scope, and the parameter of its path. -/
def adminDispatch (method : Method) (path : List Char) :
    Option (AdminHandler × Option (List Char)) :=
  match dispatch method path with
  | some (.admin, _) =>
      (pathSegments path).bind fun segments => dispatchAmong configure method segments.tail
  | _ => none

/-! ## No request has two handlers -/

def diverge : List (List Char) → List (List Char) → Bool
  | left :: lefts, right :: rights => left ≠ right || diverge lefts rights
  | _, _ => false

/-- How many segments a path of the route has. -/
def AdminRoute.width (route : AdminRoute) : Option Nat :=
  match route.ending with
  | .nothing => some route.literals.length
  | .single => some (route.literals.length + 1)
  | .rest => none

def AdminRoute.apart (left right : AdminRoute) : Bool :=
  left.method ≠ right.method || diverge left.literals right.literals ||
    (left.width.any fun width => right.width.any fun other => width ≠ other)

variable {method : Method} {segments : List (List Char)}

theorem not_both_of_diverge {lefts rights : List (List Char)} (apart : diverge lefts rights = true) :
    dropLiterals lefts segments = none ∨ dropLiterals rights segments = none := by
  induction lefts generalizing rights segments with
  | nil => cases apart
  | cons left lefts ih =>
      cases rights with
      | nil => cases apart
      | cons right rights =>
          cases segments with
          | nil => exact .inl rfl
          | cons segment path =>
              simp only [dropLiterals]
              by_cases first : decodeSegment segment = some left
              · by_cases second : decodeSegment segment = some right
                · rw [if_pos first, if_pos second]
                  have same : left = right := Option.some.inj (first.symm.trans second)
                  apply ih
                  simpa [diverge, same] using apart
                · exact .inr (if_neg second)
              · exact .inl (if_neg first)

theorem length_of_dropLiterals {literals path : List (List Char)}
    (dropped : dropLiterals literals segments = some path) :
    segments.length = literals.length + path.length := by
  induction literals generalizing segments with
  | nil =>
      cases dropped
      exact (Nat.zero_add _).symm
  | cons literal literals ih =>
      cases segments with
      | nil => cases dropped
      | cons segment rest =>
          simp only [dropLiterals] at dropped
          split at dropped
          · rw [List.length_cons, List.length_cons, ih dropped]
            omega
          · cases dropped

theorem length_of_read {ending : Ending} {path : List (List Char)} {parameter : Option (List Char)}
    (read : ending.read path = some parameter) :
    (ending = .nothing → path.length = 0) ∧ (ending = .single → path.length = 1) := by
  unfold Ending.read at read
  split at read <;> simp_all

theorem width_of_accepts {route : AdminRoute} {found : AdminHandler × Option (List Char)}
    (accepted : route.accepts method segments = some found) :
    route.method = method ∧ ∀ width, route.width = some width → segments.length = width := by
  unfold AdminRoute.accepts at accepted
  split at accepted
  · rename_i same
    refine ⟨same, fun width fixed => ?_⟩
    obtain ⟨parameter, read, -⟩ := Option.map_eq_some_iff.mp accepted
    obtain ⟨path, dropped, read⟩ := Option.bind_eq_some_iff.mp read
    have lengths := length_of_dropLiterals dropped
    obtain ⟨empty, alone⟩ := length_of_read read
    unfold AdminRoute.width at fixed
    cases ending : route.ending with
    | nothing =>
        rw [ending] at fixed
        cases fixed
        rw [lengths, empty ending, Nat.add_zero]
    | single =>
        rw [ending] at fixed
        cases fixed
        rw [lengths, alone ending]
    | rest =>
        rw [ending] at fixed
        cases fixed
  · cases accepted

theorem accepts_of_undropped {route : AdminRoute}
    (undropped : dropLiterals route.literals segments = none) :
    route.accepts method segments = none := by
  unfold AdminRoute.accepts
  split
  · rw [undropped]
    rfl
  · rfl

/-- Routes that are apart do not both take a request. -/
theorem exclusive_of_apart {left right : AdminRoute} (apart : left.apart right = true) :
    left.accepts method segments = none ∨ right.accepts method segments = none := by
  rw [AdminRoute.apart, Bool.or_eq_true, Bool.or_eq_true, decide_eq_true_iff] at apart
  rcases apart with (methods | literals) | widths
  · by_cases first : left.method = method
    · exact .inr (if_neg fun second => methods (first.trans second.symm))
    · exact .inl (if_neg first)
  · exact (not_both_of_diverge literals).imp accepts_of_undropped accepts_of_undropped
  · obtain ⟨width, leftWidth, differs⟩ := (Option.any_eq_true _ _).mp widths
    obtain ⟨other, rightWidth, differs⟩ := (Option.any_eq_true _ _).mp differs
    cases first : left.accepts method segments with
    | none => exact .inl rfl
    | some found =>
        cases second : right.accepts method segments with
        | none => exact .inr rfl
        | some other =>
            have one := (width_of_accepts first).2 _ leftWidth
            have two := (width_of_accepts second).2 _ rightWidth
            exact absurd (one.symm.trans two) (of_decide_eq_true differs)

theorem configure_apart : configure.Pairwise fun left right => left.apart right = true := by decide

/-- The order in which the services are registered does not matter. -/
theorem dispatchAmong_perm {services : List AdminRoute} (reordered : services.Perm configure)
    (method : Method) (segments : List (List Char)) :
    dispatchAmong services method segments = dispatchAmong configure method segments :=
  Selections.findSome?_perm reordered.symm (configure_apart.imp exclusive_of_apart) |>.symm

theorem dispatchAmong_reverse :
    dispatchAmong configure.reverse .delete ["uploads".toList, "slug".toList, "a".toList] =
      dispatchAmong configure .delete ["uploads".toList, "slug".toList, "a".toList] :=
  dispatchAmong_perm configure.reverse_perm .delete _

theorem dispatchAmong_of_accepts {route : AdminRoute} (registered : route ∈ configure)
    {found : AdminHandler × Option (List Char)}
    (accepted : route.accepts method segments = some found) :
    dispatchAmong configure method segments = some found := by
  obtain ⟨before, after, split⟩ := List.append_of_mem registered
  have first : (route :: (before ++ after)).Perm configure := by
    rw [split]
    exact List.perm_middle.symm
  rw [← dispatchAmong_perm first, dispatchAmong, List.findSome?_cons, accepted]

/-! ## Parameters -/

/-- The path of a route, with a parameter behind it. -/
def adminPath (literals : List (List Char)) (raw : List Char) : List Char :=
  "/admin".toList ++ literals.flatMap (fun literal => '/' :: literal) ++ '/' :: raw

/-- Text that a client may write as it is. -/
def Plain (literal : List Char) : Prop := utf8PercentEncode literal = literal

instance (literal : List Char) : Decidable (Plain literal) :=
  inferInstanceAs (Decidable (_ = _))

theorem configure_plain : ∀ route ∈ configure, ∀ literal ∈ route.literals, Plain literal := by decide

variable {literals : List (List Char)} {raw : List Char}

theorem Plain.decoded {literal : List Char} (plain : Plain literal) :
    decodeSegment literal = some literal := by
  have decoded := decodeSegment_utf8PercentEncode literal
  rwa [show utf8PercentEncode literal = literal from plain] at decoded

theorem Plain.whole {literal : List Char} (plain : Plain literal) : '/' ∉ literal := by
  have whole := slash_not_mem_utf8PercentEncode literal
  rwa [show utf8PercentEncode literal = literal from plain] at whole

theorem splitOn_literals {front : List Char} (whole : '/' ∉ front)
    (plain : ∀ literal ∈ literals, Plain literal) :
    (front ++ literals.flatMap (fun literal => '/' :: literal) ++ '/' :: raw).splitOn '/' =
      front :: (literals ++ raw.splitOn '/') := by
  induction literals generalizing front with
  | nil =>
      rw [List.flatMap_nil, List.append_nil]
      exact List.splitOn_append_cons_self_of_not_mem whole raw
  | cons literal literals ih =>
      have later := ih (plain literal List.mem_cons_self).whole
        fun other member => plain other (List.mem_cons_of_mem _ member)
      rw [List.flatMap_cons, List.cons_append, List.append_assoc, List.cons_append,
        List.splitOn_append_cons_self_of_not_mem whole, later]
      rfl

theorem pathSegments_adminPath (plain : ∀ literal ∈ literals, Plain literal) (raw : List Char) :
    pathSegments (adminPath literals raw) =
      some ("admin".toList :: (literals ++ raw.splitOn '/')) := by
  have whole : '/' ∉ "admin".toList := by decide
  rw [← splitOn_literals whole plain]
  rfl

/-- What has more than one segment and begins with the scope goes to its services. -/
theorem dispatch_admin {path : List Char} (method : Method) (below : segments ≠ [])
    (cut : pathSegments path = some ("admin".toList :: segments)) :
    dispatch method path = some (.admin, []) := by
  have decoded : decodeSegment "admin".toList = some "admin".toList :=
    Plain.decoded (by decide)
  obtain ⟨segment, rest, rfl⟩ := List.exists_cons_of_ne_nil below
  have page : "admin".toList ≠ captcha := by decide
  have script : "admin".toList ≠ captchaScript := by decide
  simp only [dispatch, cut, Option.bind_eq_bind, Option.bind_some, routes, List.findSome?_cons,
    Route.accepts, matchSegments, decoded, Option.some.injEq, page, script]
  cases method <;> simp

theorem dropLiterals_append (plain : ∀ literal ∈ literals, Plain literal)
    (path : List (List Char)) : dropLiterals literals (literals ++ path) = some path := by
  induction literals with
  | nil => rfl
  | cons literal literals ih =>
      rw [List.cons_append, dropLiterals, if_pos (plain literal List.mem_cons_self).decoded]
      exact ih fun other member => plain other (List.mem_cons_of_mem _ member)

theorem adminDispatch_of_read {route : AdminRoute} (registered : route ∈ configure)
    {parameter : Option (List Char)} (read : route.ending.read (raw.splitOn '/') = some parameter) :
    adminDispatch route.method (adminPath route.literals raw) = some (route.handler, parameter) := by
  have plain := configure_plain route registered
  have cut := pathSegments_adminPath plain raw
  have below : route.literals ++ raw.splitOn '/' ≠ [] :=
    List.append_ne_nil_of_right_ne_nil _ (List.splitOn_ne_nil '/' raw)
  rw [adminDispatch, dispatch_admin route.method below cut, cut]
  refine dispatchAmong_of_accepts registered ?_
  rw [AdminRoute.accepts, if_pos rfl, List.tail_cons, dropLiterals_append plain,
    Option.bind_some, read]
  rfl

/-- A parameter that takes the rest of the path takes its slashes too. -/
theorem adminDispatch_rest {route : AdminRoute} (registered : route ∈ configure)
    (ending : route.ending = .rest) (raw : List Char) :
    adminDispatch route.method (adminPath route.literals raw) = some (route.handler, some raw) := by
  refine adminDispatch_of_read registered ?_
  obtain ⟨first, others, split⟩ := List.exists_cons_of_ne_nil (List.splitOn_ne_nil '/' raw)
  have joined : ['/'].intercalate (raw.splitOn '/') = raw := List.intercalate_splitOn '/'
  rw [ending, split, Ending.read, ← split, joined]

theorem adminDispatch_single {route : AdminRoute} (registered : route ∈ configure)
    (ending : route.ending = .single) (nonempty : raw ≠ []) (whole : '/' ∉ raw) :
    adminDispatch route.method (adminPath route.literals raw) = some (route.handler, some raw) := by
  refine adminDispatch_of_read registered ?_
  rw [ending, List.splitOn_eq_singleton whole, Ending.read, if_neg nonempty]

/-- Whatever text a client percent-encodes into the path of a route, the handler of the
route gets that text. -/
theorem adminDispatch_encoded {route : AdminRoute} (registered : route ∈ configure)
    {text : List Char} (takes : route.ending = .rest ∨ route.ending = .single ∧ text ≠ []) :
    ∃ raw, adminDispatch route.method (adminPath route.literals (utf8PercentEncode text)) =
        some (route.handler, some raw) ∧ decodeSegment raw = some text := by
  refine ⟨utf8PercentEncode text, ?_, decodeSegment_utf8PercentEncode text⟩
  rcases takes with rest | ⟨single, nonempty⟩
  · exact adminDispatch_rest registered rest _
  · exact adminDispatch_single registered single (utf8PercentEncode_ne_nil nonempty)
      (slash_not_mem_utf8PercentEncode text)

end Filehost.Admin
