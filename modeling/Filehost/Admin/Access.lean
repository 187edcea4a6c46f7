import Filehost.Admin.BanCommands
import Filehost.Admin.Routes
import Filehost.Http.ForwardedFor

namespace Filehost.Admin

open Filehost.Data Filehost.Data.Registers Filehost.Database Filehost.Http

/-! # Access to the admin server -/

def constantTimeEq (a b : List UInt8) : Bool :=
  if a.length ≠ b.length then false
  else (List.zip a b).foldl (fun acc (x, y) => acc ||| (x ^^^ y)) 0 == 0

/-- `str::strip_prefix`. -/
def stripPrefix (lead text : List Char) : Option (List Char) :=
  if lead <+: text then some (text.drop lead.length) else none

def bearer : List Char := "Bearer ".toList

def authorization : HeaderName := .other "authorization".toList

/-- The extractor `AdminAuth`, which guards every handler. -/
def adminAuth (adminToken : Option (List Char)) (request : HttpRequest) :
    Except TextResponse Unit :=
  match adminToken with
  | none => .error ⟨404, false, "Not found".toList⟩
  | some configured =>
      match ((request.get authorization).bind HeaderValue.toStr).bind (stripPrefix bearer) with
      | none => .error ⟨401, false, "Missing or malformed Authorization header".toList⟩
      | some token =>
          if constantTimeEq (PercentEncoding.utf8Bytes token) (PercentEncoding.utf8Bytes configured)
          then .ok ()
          else .error ⟨403, false, "Invalid admin token".toList⟩

/-! ## The comparison -/

theorem foldl_differences (pairs : List (UInt8 × UInt8)) (acc : UInt8) :
    pairs.foldl (fun acc (x, y) => acc ||| (x ^^^ y)) acc = 0 ↔
      acc = 0 ∧ ∀ pair ∈ pairs, pair.1 = pair.2 := by
  induction pairs generalizing acc with
  | nil => simp
  | cons pair rest ih =>
      rw [List.foldl_cons, ih, UInt8.or_eq_zero_iff, UInt8.xor_eq_zero_iff, List.forall_mem_cons, and_assoc]

/-- It looks at every byte, and finds the texts equal exactly when they are. -/
theorem constantTimeEq_iff {a b : List UInt8} : constantTimeEq a b = true ↔ a = b := by
  unfold constantTimeEq
  constructor
  · intro equal
    split at equal
    · cases equal
    · rename_i lengths
      have same := ((foldl_differences _ 0).mp (eq_of_beq equal)).2
      refine List.ext_getElem (not_not.mp lengths) fun index left right => ?_
      have bound : index < (List.zip a b).length := by
        rw [List.length_zip]
        omega
      have listed := same _ (List.getElem_mem bound)
      rwa [List.getElem_zip] at listed
  · rintro rfl
    rw [if_neg (not_not.mpr rfl), beq_iff_eq, foldl_differences]
    refine ⟨rfl, fun pair listed => ?_⟩
    obtain ⟨index, bound, rfl⟩ := List.getElem_of_mem listed
    rw [List.getElem_zip]

theorem stripPrefix_eq_some {lead text rest : List Char} :
    stripPrefix lead text = some rest ↔ text = lead ++ rest := by
  unfold stripPrefix
  constructor
  · intro stripped
    split at stripped
    · rename_i front
      obtain ⟨tail, rfl⟩ := front
      rw [List.drop_left] at stripped
      rw [Option.some.inj stripped]
    · cases stripped
  · rintro rfl
    rw [if_pos (List.prefix_append _ _), List.drop_left]

/-- Only the token that is configured, in the first header of the name, opens. -/
theorem adminAuth_ok_iff {adminToken : Option (List Char)} {request : HttpRequest} :
    adminAuth adminToken request = .ok () ↔ ∃ configured value, adminToken = some configured ∧
      request.get authorization = some value ∧ value.toStr = some (bearer ++ configured) := by
  cases adminToken with
  | none => simp [adminAuth]
  | some configured =>
      have opened : adminAuth (some configured) request = .ok () ↔
          ((request.get authorization).bind HeaderValue.toStr).bind (stripPrefix bearer) =
            some configured := by
        unfold adminAuth
        dsimp only
        split
        · rename_i missing
          rw [missing]
          simp
        · rename_i token found
          rw [found, Option.some.injEq, ← PercentEncoding.utf8Bytes_inj, ← constantTimeEq_iff]
          split <;> simp_all
      rw [opened]
      simp only [Option.bind_eq_some_iff, stripPrefix_eq_some, Option.some.injEq]
      constructor
      · intro found
        obtain ⟨header, ⟨value, present, read⟩, rfl⟩ := found
        exact ⟨configured, value, rfl, present, read⟩
      · intro found
        obtain ⟨_, value, rfl, present, read⟩ := found
        exact ⟨_, ⟨value, present, read⟩, rfl⟩

/-! ## Requests -/

structure AdminRequest extends HttpRequest where
  method : Method
  path : List Char

/-- The handler that a request gets to, with the parameter of its path, which is not
there if it is not UTF-8. -/
def adminCall (adminToken : Option (List Char)) (request : AdminRequest) :
    Except TextResponse (AdminHandler × Option (List Char)) :=
  match adminDispatch request.method request.path with
  | none => .error ⟨404, false, []⟩
  | some (handler, raw) =>
      match adminAuth adminToken request.toHttpRequest with
      | .error response => .error response
      | .ok () => .ok (handler, raw.bind decodeSegment)

/-- No handler is called without the token. -/
theorem adminCall_ok_iff {adminToken : Option (List Char)} {request : AdminRequest}
    {handler : AdminHandler} {parameter : Option (List Char)} :
    adminCall adminToken request = .ok (handler, parameter) ↔
      (∃ raw, adminDispatch request.method request.path = some (handler, raw) ∧
        parameter = raw.bind decodeSegment) ∧
      ∃ configured value, adminToken = some configured ∧
        request.get authorization = some value ∧ value.toStr = some (bearer ++ configured) := by
  rw [← adminAuth_ok_iff]
  unfold adminCall
  cases adminDispatch request.method request.path with
  | none => simp
  | some found =>
      obtain ⟨called, raw⟩ := found
      cases adminAuth adminToken request.toHttpRequest with
      | error response => simp
      | ok _ => simp [eq_comm, and_comm]

/-- `Bearer t`. -/
def tokenBytes : List UInt8 := [0x42, 0x65, 0x61, 0x72, 0x65, 0x72, 0x20, 0x74]

theorem tokenBytes_accepted : ∀ byte ∈ tokenBytes, AcceptedByte byte :=
  @of_decide_eq_true _ (List.decidableBAll _ _) rfl

def adminClient : HttpRequest := ⟨[(authorization, ⟨tokenBytes, tokenBytes_accepted⟩)], none⟩

theorem adminClient_opens : adminAuth (some ['t']) adminClient = .ok () :=
  adminAuth_ok_iff.mpr ⟨['t'], ⟨tokenBytes, tokenBytes_accepted⟩, rfl, rfl, by decide⟩

end Filehost.Admin
