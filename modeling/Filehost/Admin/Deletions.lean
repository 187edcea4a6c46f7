import Filehost.Admin.Listings
import Filehost.Admin.Removals
import Filehost.Admin.Stats

namespace Filehost.Admin

open Filehost.Data Filehost.Database Filehost.Http Filehost.Ip Filehost.Store

/-! # Deleting what a list shows

The lists of uploads and the deletions select by the same columns. -/

/-- The uploads that a handler deletes.  `parseUuid` is `Uuid::parse_str`. -/
def AdminHandler.target (parseUuid : List Char → Option Uuid) :
    AdminHandler → List Char → Option (Except JsonError DeleteTarget)
  | .deleteUpload, id =>
      match parseUuid id with
      | none => some (.error (badRequest "Invalid id"))
      | some id => some (.ok (.byId id))
  | .deleteUploadBySlug, slug => some (.ok (.bySlug slug))
  | .deleteUploadByIp, ip =>
      match parseIpAddr ip with
      | none => some (.error (badRequest "Invalid ip"))
      | some ip => some (.ok (.byIp ip))
  | _, _ => none

/-- The answer `deleted` to a deletion, and the store it leaves. -/
def runDeletion (env : StoreEnv) (faults : DeleteFaults) (now : Int) (storage : Storage) :
    Except JsonError DeleteTarget → Except JsonError Nat × Storage
  | .error error => (.error error, storage)
  | .ok target =>
      match deleteMatching env faults target now storage with
      | (after, some deleted) => (.ok deleted, after)
      | (after, none) => (.error internalErr, after)

def deleteUploads (parseUuid : List Char → Option Uuid) (env : StoreEnv) (faults : DeleteFaults)
    (now : Int) (adminToken : Option (List Char)) (request : AdminRequest) (storage : Storage) :
    Option (Except JsonError Nat × Storage) :=
  match adminCall adminToken request with
  | .ok (handler, some parameter) =>
      (handler.target parseUuid parameter).map (runDeletion env faults now storage)
  | _ => none

/-- The database answers.  Files may fail to be removed. -/
structure DatabaseWorks (faults : DeleteFaults) : Prop where
  select : faults.select = false
  statement : ∀ id, faults.statement id = false

/-- The answer counts these rows; they are marked deleted, and the table is not changed
otherwise. -/
def DeletesRows (answer : Option (Except JsonError Nat × Storage)) (now : Int) (storage : Storage)
    (rows : List Upload) : Prop :=
  ∃ after, answer = some (.ok rows.length, after) ∧
    after.uploads = storage.uploads.setAllDeleted (rows.map Upload.id) now

variable {parseUuid : List Char → Option Uuid} {env : StoreEnv} {faults : DeleteFaults} {now : Int}
  {adminToken : Option (List Char)} {client : HttpRequest} {storage : Storage}

theorem markedIds_of_works (works : DatabaseWorks faults) (rows : List Upload) :
    markedIds faults rows = rows.map Upload.id := by
  rw [markedIds, List.filter_eq_self.mpr]
  intro row _
  rw [works.statement]
  rfl

theorem runDeletion_rows (works : DatabaseWorks faults) {target : DeleteTarget}
    (wellFormed : target.wellFormed = true) :
    DeletesRows (some (runDeletion env faults now storage (.ok target))) now storage
      (selectedRows env target now storage) := by
  have accepted : (!target.wellFormed || faults.select) = false := by
    rw [wellFormed, works.select]
    rfl
  have whole := @deleteRows_succeeds env faults now works.statement
    (selectedRows env target now storage) storage
  have result : deleteMatching env faults target now storage =
      ((deleteMatching env faults target now storage).1,
        some (selectedRows env target now storage).length) := by
    rw [deleteMatching, if_neg (by rw [accepted]; exact Bool.false_ne_true)]
    dsimp only
    split
    · rfl
    · rename_i stopped
      rw [stopped] at whole
      cases whole
  refine ⟨(deleteMatching env faults target now storage).1, ?_, ?_⟩
  · rw [runDeletion, result]
  · rw [deleteMatching_uploads, handledRows_of_statements env now wellFormed works.select
      works.statement, markedIds_of_works works]

theorem deleteUploads_of_route {literals : List String} {handler : AdminHandler}
    (registered : service .delete literals .single handler ∈ configure)
    (authorised : Authorised adminToken client) {shown : List Char} (nonempty : shown ≠ [])
    {target : DeleteTarget} (targets : handler.target parseUuid shown = some (.ok target)) :
    deleteUploads parseUuid env faults now adminToken (removalRequest client literals shown) storage =
      some (runDeletion env faults now storage (.ok target)) := by
  rw [deleteUploads, adminCall_removalRequest registered authorised (.inr ⟨rfl, nonempty⟩)]
  dsimp only
  rw [targets]
  rfl

theorem targets_ip {address : List Char} {ip : IpAddr} (parsed : parseIpAddr address = some ip) :
    AdminHandler.target parseUuid .deleteUploadByIp address = some (.ok (.byIp ip)) := by
  rw [AdminHandler.target, parsed]

theorem targets_id {text : List Char} {id : Uuid} (parsed : parseUuid text = some id) :
    AdminHandler.target parseUuid .deleteUpload text = some (.ok (.byId id)) := by
  rw [AdminHandler.target, parsed]

section Lists

variable {Score : Type} (scores : NsfwScores Score)

def slugFilter (slug : List Char) : UploadFilter Score := ⟨none, some slug, false, none⟩

def ipFilter (ip : IpAddr) : UploadFilter Score := ⟨some ip, none, false, none⟩

theorem selectedRows_bySlug (slug : List Char) : selectedRows env (.bySlug slug) now storage =
    storage.uploads.matching env.collation scores (slugFilter slug) := by
  apply List.filter_congr
  intro row _
  simp [DeleteTarget.whereClause, UploadFilter.selects, slugFilter, Bool.and_comm]

theorem selectedRows_byIp (ip : IpAddr) : selectedRows env (.byIp ip) now storage =
    storage.uploads.matching env.collation scores (ipFilter ip) := by
  apply List.filter_congr
  intro row _
  simp [DeleteTarget.whereClause, UploadFilter.selects, ipFilter, Bool.and_comm]

theorem selectedRows_byId {row : Upload} (member : row ∈ storage.uploads.rows)
    (active : row.active = true) : selectedRows env (.byId row.id) now storage = [row] := by
  have nodup : (selectedRows env (.byId row.id) now storage).Nodup :=
    storage.uploads.distinct.of_map.filter _
  rw [← List.perm_singleton, List.perm_ext_iff_of_nodup nodup (List.nodup_singleton row)]
  intro other
  rw [selectedRows, List.mem_filter, Bool.and_eq_true, List.mem_singleton]
  constructor
  · exact fun found => Uploads.eq_of_same_id found.1 member (of_decide_eq_true found.2.1)
  · rintro rfl
    exact ⟨member, decide_eq_true rfl, active⟩

theorem slugs_registered :
    service .delete ["uploads", "slug"] .single .deleteUploadBySlug ∈ configure := by decide

theorem ips_registered :
    service .delete ["uploads", "ip"] .single .deleteUploadByIp ∈ configure := by decide

theorem ids_registered : service .delete ["uploads"] .single .deleteUpload ∈ configure := by decide

theorem toString_ne_nil (id : Uuid) : id.toString ≠ [] := by
  simp [Uuid.toString]

/-- A deletion by slug or by address deletes what the list with that filter shows, one by
identifier the upload that has it, and answers how many they are. -/
theorem deletions_answer_lists (works : DatabaseWorks faults) (authorised : Authorised adminToken client) :
    (∀ slug, slug ≠ [] → DeletesRows
      (deleteUploads parseUuid env faults now adminToken
        (removalRequest client ["uploads", "slug"] slug) storage) now storage
      (storage.uploads.matching env.collation scores (slugFilter slug))) ∧
    (∀ address ip, parseIpAddr address = some ip → DeletesRows
      (deleteUploads parseUuid env faults now adminToken
        (removalRequest client ["uploads", "ip"] address) storage) now storage
      (storage.uploads.matching env.collation scores (ipFilter ip))) ∧
    ∀ row ∈ storage.uploads.rows, row.active = true →
      parseUuid row.id.toString = some row.id → DeletesRows
        (deleteUploads parseUuid env faults now adminToken
          (removalRequest client ["uploads"] row.id.toString) storage) now storage [row] := by
  refine ⟨fun slug nonempty => ?_, fun address ip parsed => ?_, fun row member active parsed => ?_⟩
  · rw [deleteUploads_of_route slugs_registered authorised nonempty rfl,
      ← selectedRows_bySlug scores slug]
    exact runDeletion_rows works rfl
  · have nonempty : address ≠ [] := by
      rintro rfl
      cases parsed
    rw [deleteUploads_of_route ips_registered authorised nonempty
      (targets_ip parsed), ← selectedRows_byIp scores ip]
    exact runDeletion_rows works rfl
  · have deleted := @runDeletion_rows env faults now storage works (.byId row.id) rfl
    rw [selectedRows_byId member active] at deleted
    rw [deleteUploads_of_route ids_registered authorised (toString_ne_nil row.id)
      (targets_id parsed)]
    exact deleted

end Lists

def parseFirst (text : List Char) : Option Uuid :=
  if text = firstUuid.toString then some firstUuid else none

def copiedUpload : Upload := Uploads.withHash (some emptyDigest) (emptyUpload firstUuid 1 "abc")

theorem copied_deletions :
    DeletesRows (deleteUploads parseFirst plainEnv .none 3 (some ['t'])
      (removalRequest adminClient ["uploads"] firstUuid.toString) copiedState) 3 copiedState
      [copiedUpload] := by
  have answered := @deletions_answer_lists parseFirst plainEnv .none 3 (some ['t']) adminClient
    copiedState Int unscored ⟨rfl, fun _ => rfl⟩ adminClient_opens
  exact answered.2.2 copiedUpload (by decide) rfl (if_pos rfl)

end Filehost.Admin
