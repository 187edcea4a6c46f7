import Filehost.Admin.Access
import Filehost.Util.Hex

namespace Filehost.Admin

open Filehost.Data Filehost.Data.Registers Filehost.Database Filehost.Http

/-! # Taking back what a list shows

A client removes a ban by the text that the list shows of it, percent-encoded into a
path. -/

/-- The bans that are removed by a text. -/
def AdminHandler.removal : AdminHandler → List Char → Option BanHandler
  | .removeBannedFilename, pattern => some (.removeBannedFilename pattern)
  | .removeBannedMime, mime => some (.removeBannedMime mime)
  | .removeBannedHash, hash => some (.removeBannedHash hash)
  | .removeBannedUserAgent, pattern => some (.removeBannedUserAgent pattern)
  | _, _ => none

/-- The tables after a request to remove a ban, or the error it is answered with; `none`
if it does not get to such a handler. -/
def removeBan (text : RequestText) (collation : Collation) (adminToken : Option (List Char))
    (request : AdminRequest) (tables : BanTables) : Option (Except JsonError BanTables) :=
  match adminCall adminToken request with
  | .ok (handler, some parameter) =>
      (handler.removal parameter).map (runBanHandler text collation tables)
  | _ => none

/-- The request brings the token. -/
def Authorised (adminToken : Option (List Char)) (request : HttpRequest) : Prop :=
  adminAuth adminToken request = .ok ()

/-- The list no longer shows the row, and shows the others as before. -/
def Removes {Row : Type} (list : BanTables → List Row) (row : Row) (tables after : BanTables) :
    Prop :=
  ∀ other, other ∈ list after ↔ other ∈ list tables ∧ other ≠ row

variable {text : CliText} {collation : Collation} {tables : BanTables} {adminToken : Option (List Char)}
  {client : HttpRequest}

/-- A request whose path names a text in the place of the parameter of a route. -/
def removalRequest (client : HttpRequest) (literals : List String) (shown : List Char) :
    AdminRequest :=
  { client with
    method := .delete
    path := adminPath (literals.map String.toList) (utf8PercentEncode shown) }

theorem adminCall_removalRequest {literals : List String} {ending : Ending} {handler : AdminHandler}
    (registered : service .delete literals ending handler ∈ configure)
    (authorised : Authorised adminToken client) {shown : List Char}
    (dispatched : ending = .rest ∨ ending = .single ∧ shown ≠ []) :
    adminCall adminToken (removalRequest client literals shown) = .ok (handler, some shown) := by
  obtain ⟨raw, found, decoded⟩ := adminDispatch_encoded registered dispatched
  have opened : adminAuth adminToken (removalRequest client literals shown).toHttpRequest = .ok () :=
    authorised
  have asked : adminDispatch (removalRequest client literals shown).method
      (removalRequest client literals shown).path = some (handler, some raw) := found
  rw [adminCall, asked]
  dsimp only
  rw [opened, Option.bind_some, decoded]

theorem removeBan_of_route {literals : List String} {ending : Ending} {handler : AdminHandler}
    (registered : service .delete literals ending handler ∈ configure)
    (authorised : Authorised adminToken client) {shown : List Char}
    (dispatched : ending = .rest ∨ ending = .single ∧ shown ≠ []) {removal : BanHandler}
    (removes : handler.removal shown = some removal) (text : RequestText) :
    removeBan text collation adminToken (removalRequest client literals shown) tables =
      some (runBanHandler text collation tables removal) := by
  rw [removeBan, adminCall_removalRequest registered authorised dispatched]
  dsimp only
  rw [removes]
  rfl

/-- A row that a register holds is deleted alone. -/
theorem deleteWhere_of_kept {Row : Type} {keyOf : Row → List Nat} {rows : List Row}
    {changes : List (TextChange Row)} (keeps : Keeps keyOf rows changes) {selects : Row → Bool}
    {row : Row} (member : row ∈ rows)
    (recognises : ∀ other, selects other = decide (keyOf other = keyOf row)) :
    ∃ after, deleteWhere selects rows = some after ∧
      ∀ other, other ∈ after ↔ other ∈ rows ∧ other ≠ row := by
  have present : rows.any selects = true :=
    List.any_eq_true.mpr ⟨row, member, (recognises row).trans (decide_eq_true rfl)⟩
  refine ⟨_, if_pos present, fun other => ?_⟩
  rw [List.mem_filter]
  refine and_congr_right fun listed => ?_
  rw [recognises, Bool.not_eq_true', decide_eq_false_iff_not]
  constructor
  · exact fun apart same => apart (by rw [same])
  · exact fun apart same => apart (keeps.unique listed member same)

theorem mem_sheet {Row : Type} {keyOf : Row → List Nat} {rows : List Row} {row : Row} :
    row ∈ sheet keyOf rows ↔ row ∈ rows :=
  (List.perm_insertionSort _ rows).mem_iff

theorem filenames_registered :
    service .delete ["bans", "filenames"] .rest .removeBannedFilename ∈ configure := by decide

theorem hashes_registered :
    service .delete ["bans", "hashes"] .single .removeBannedHash ∈ configure := by decide

theorem userAgents_registered :
    service .delete ["bans", "user-agents"] .rest .removeBannedUserAgent ∈ configure := by decide

theorem hexEncode_ne_nil {hash : List UInt8} (nonempty : hash ≠ []) : Store.hexEncode hash ≠ [] := by
  obtain ⟨byte, rest, rfl⟩ := List.exists_cons_of_ne_nil nonempty
  exact List.cons_ne_nil _ _

/-- After any requests and commands every ban of a name, a hash or an agent can be removed
by what the list shows of it. -/
theorem listed_removed {start : BanTables} {events : List BanEvent}
    (run : (banSystem text collation).Run start events tables) (unbanned : Unbanned start)
    (authorised : Authorised adminToken client) :
    (∀ row ∈ tables.listBannedFilenames collation, ∃ after,
      removeBan text.toRequestText collation adminToken
        (removalRequest client ["bans", "filenames"] row.pattern) tables = some (.ok after) ∧
      Removes (BanTables.listBannedFilenames collation) row tables after) ∧
    (∀ row ∈ tables.listBannedHashes, row.hash ≠ [] → ∃ after,
      removeBan text.toRequestText collation adminToken
        (removalRequest client ["bans", "hashes"] (Store.hexEncode row.hash)) tables =
          some (.ok after) ∧
      Removes BanTables.listBannedHashes row tables after) ∧
    (∀ row ∈ tables.listBannedUserAgents collation, ∃ after,
      removeBan text.toRequestText collation adminToken
        (removalRequest client ["bans", "user-agents"] row.pattern) tables = some (.ok after) ∧
      Removes (BanTables.listBannedUserAgents collation) row tables after) := by
  have executed := run_statements run
  refine ⟨fun row listed => ?_, fun row listed nonempty => ?_, fun row listed => ?_⟩
  · obtain ⟨rows, deleted, others⟩ := deleteWhere_of_kept (run_filenames executed unbanned)
      (mem_sheet.mp listed) fun _ => rfl
    refine ⟨{ tables with filenames := rows }, ?_, fun other => ?_⟩
    · refine (removeBan_of_route filenames_registered authorised (.inl rfl) rfl _).trans ?_
      exact congrArg (fun remaining => some (respondRemoved remaining))
        (congrArg (Option.map _) deleted)
    · exact mem_sheet.trans ((others other).trans (and_congr_left' mem_sheet.symm))
  · obtain ⟨rows, deleted, others⟩ := deleteWhere_of_kept (run_hashes executed unbanned)
      (mem_sheet.mp listed) (hash_recognised row.hash)
    refine ⟨{ tables with hashes := rows }, ?_, fun other => ?_⟩
    · have shown : Store.hexEncode row.hash ≠ [] := hexEncode_ne_nil nonempty
      refine (removeBan_of_route hashes_registered authorised (.inr ⟨rfl, shown⟩) rfl _).trans ?_
      have read : hexDecode (Store.hexEncode row.hash) = some row.hash := by
        rw [← Util.hexDecode_eq_pairs, Util.hexDecode_hexEncode]
      change some (removeBannedHash _ tables) = _
      rw [removeBannedHash, read]
      exact congrArg (fun remaining => some (respondRemoved remaining))
        (congrArg (Option.map _) deleted)
    · exact mem_sheet.trans ((others other).trans (and_congr_left' mem_sheet.symm))
  · obtain ⟨rows, deleted, others⟩ := deleteWhere_of_kept (run_userAgents executed unbanned)
      (mem_sheet.mp listed) fun _ => rfl
    refine ⟨{ tables with userAgents := rows }, ?_, fun other => ?_⟩
    · refine (removeBan_of_route userAgents_registered authorised (.inl rfl) rfl _).trans ?_
      exact congrArg (fun remaining => some (respondRemoved remaining))
        (congrArg (Option.map _) deleted)
    · exact mem_sheet.trans ((others other).trans (and_congr_left' mem_sheet.symm))

theorem bannedAgain_removed : ∃ after,
    removeBan silentText .binary (some ['t'])
      (removalRequest adminClient ["bans", "filenames"] ['a']) bannedAgainTables =
        some (.ok after) ∧
    Removes (BanTables.listBannedFilenames .binary) ⟨['a'], some ['2']⟩ bannedAgainTables after :=
  (listed_removed bannedAgain_run unbanned_empty adminClient_opens).1 ⟨['a'], some ['2']⟩
    List.mem_cons_self

end Filehost.Admin
