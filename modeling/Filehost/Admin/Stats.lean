import Filehost.Admin.IpStats
import Filehost.Database.Statistics
import Filehost.Store.Archive
import Filehost.Store.Lifecycle

namespace Filehost.Admin

open Filehost.Cache Filehost.Data Filehost.Data.Paging Filehost.Data.Tallies Filehost.Database
  Filehost.Ip Filehost.Store

/-! # The statistics pages -/

/-- An error of the database is logged, not shown. -/
def internalErr : JsonError := ⟨500, "Something went wrong.".toList⟩

def topUploadersLimit : Nat := 10

structure TopUploaderDto where
  ip : List Char
  count : Int
  bytes : Int

structure TopNsfwUploaderDto where
  ip : List Char
  count : Int
  avgScore : ℚ

structure StatsDto where
  totals : GlobalStats
  topUploaders : List TopUploaderDto
  topNsfwUploaders : List TopNsfwUploaderDto

/-- `ip::from_db_bytes(..).map(|ip| ip.to_string()).unwrap_or_default()`. -/
def shownIp (display : IpAddr → List Char) (bytes : List UInt8) : List Char :=
  ((fromDbBytes bytes).map display).getD []

/-- Which of the queries fail, and how the database sorts the others. -/
structure StatsQueries where
  totalsFail : Bool
  uploadersFail : Bool
  nsfwUploadersFail : Bool
  uploaders : Sorting (@Group.count Upload (List UInt8))
  nsfwUploaders : Sorting (@Group.count Upload (List UInt8))

def stats (display : IpAddr → List Char) (nsfwThreshold : ℚ) (queries : StatsQueries)
    (table : Uploads) (scores : Scores) (now : Int) : Except JsonError StatsDto := do
  if queries.totalsFail then throw internalErr
  let totals := globalStats table now
  if queries.uploadersFail then throw internalErr
  let topUploaders := topUploaderIps table queries.uploaders topUploadersLimit
  if queries.nsfwUploadersFail then throw internalErr
  let topNsfwUploaders :=
    topNsfwUploaderIps table scores nsfwThreshold queries.nsfwUploaders topUploadersLimit
  return {
    totals
    topUploaders := topUploaders.map fun u => ⟨shownIp display u.ip, u.count, u.bytes⟩
    topNsfwUploaders := topNsfwUploaders.map fun u => ⟨shownIp display u.ip, u.count, u.avgScore⟩ }

/-! ## The lists of the page -/

def scoredRows (scores : Scores) (minScore : ℚ) (table : Uploads) : List Upload :=
  table.rows.filter fun row => row.active && scoredAtLeast scores minScore row

theorem stats_ok {display : IpAddr → List Char} {nsfwThreshold : ℚ} {queries : StatsQueries}
    {table : Uploads} {scores : Scores} {now : Int} {page : StatsDto}
    (answered : stats display nsfwThreshold queries table scores now = .ok page) :
    page.totals = globalStats table now ∧
      page.topUploaders = (topUploaderIps table queries.uploaders topUploadersLimit).map
        (fun u => ⟨shownIp display u.ip, u.count, u.bytes⟩) ∧
      page.topNsfwUploaders =
        (topNsfwUploaderIps table scores nsfwThreshold queries.nsfwUploaders topUploadersLimit).map
          fun u => ⟨shownIp display u.ip, u.count, u.avgScore⟩ := by
  obtain ⟨totalsFail, uploadersFail, nsfwUploadersFail, uploaders, nsfwUploaders⟩ := queries
  cases totalsFail with
  | true => cases answered
  | false =>
      cases uploadersFail with
      | true => cases answered
      | false =>
          cases nsfwUploadersFail with
          | true => cases answered
          | false =>
              cases answered
              exact ⟨rfl, rfl, rfl⟩

/-- The lists show the addresses with the most uploads, each once and with all that it
has, within the totals of the same page.  No average is under the threshold. -/
theorem stats_lists {display : IpAddr → List Char} {nsfwThreshold : ℚ} {queries : StatsQueries}
    {table : Uploads} {scores : Scores} {now : Int} {page : StatsDto}
    (answered : stats display nsfwThreshold queries table scores now = .ok page) :
    (∃ listed, Leads Upload.uploaderIp (table.rows.filter Upload.active) topUploadersLimit listed ∧
      page.topUploaders = listed.map fun group =>
        ⟨shownIp display group.key, group.count, group.total Upload.fileSize⟩) ∧
    (∃ listed, Leads Upload.uploaderIp (scoredRows scores nsfwThreshold table) topUploadersLimit
        listed ∧
      page.topNsfwUploaders = listed.map fun group =>
        ⟨shownIp display group.key, group.count, averageScore scores group.members⟩) ∧
    (∀ shown ∈ page.topNsfwUploaders, nsfwThreshold ≤ shown.avgScore) ∧
    (page.topUploaders.map TopUploaderDto.count).sum ≤ page.totals.activeUploads ∧
    ((∀ row ∈ table.rows, 0 ≤ row.fileSize) →
      (page.topUploaders.map TopUploaderDto.bytes).sum ≤ page.totals.activeBytes) ∧
    (((table.rows.filter Upload.active).map Upload.uploaderIp).dedup.length ≤ topUploadersLimit →
      (page.topUploaders.map TopUploaderDto.count).sum = page.totals.activeUploads ∧
        (page.topUploaders.map TopUploaderDto.bytes).sum = page.totals.activeBytes) := by
  obtain ⟨totals, uploaders, nsfwUploaders⟩ := stats_ok answered
  have counts : page.topUploaders.map TopUploaderDto.count =
      (topUploaderIps table queries.uploaders topUploadersLimit).map TopUploader.count := by
    rw [uploaders, List.map_map]
    rfl
  have bytes : page.topUploaders.map TopUploaderDto.bytes =
      (topUploaderIps table queries.uploaders topUploadersLimit).map TopUploader.bytes := by
    rw [uploaders, List.map_map]
    rfl
  rw [counts, bytes, totals]
  refine ⟨⟨leaders Upload.uploaderIp queries.uploaders _ _, leaders_lead, ?_⟩,
    ⟨leaders Upload.uploaderIp queries.nsfwUploaders _ _, leaders_lead, ?_⟩, ?_,
    topUploaderIps_within now _ _⟩
  · rw [uploaders, topUploaderIps, List.map_map]
    rfl
  · rw [nsfwUploaders, topNsfwUploaderIps, List.map_map]
    rfl
  · intro shown listed
    rw [nsfwUploaders, topNsfwUploaderIps, List.map_map] at listed
    obtain ⟨group, leads, rfl⟩ := List.mem_map.mp listed
    obtain ⟨whole, present⟩ := leaders_lead.whole group leads
    obtain ⟨row, member, same⟩ := List.mem_map.mp present
    refine averageScore_ge ?_ fun other listed => ?_
    · rw [whole]
      exact List.ne_nil_of_mem (List.mem_filter.mpr ⟨member, decide_eq_true same⟩)
    · rw [whole] at listed
      have scored := (List.mem_filter.mp (List.mem_filter.mp listed).1).2
      exact (Bool.and_eq_true_iff.mp scored).2

def plainQueries : StatsQueries := ⟨false, false, false, .stable _, .stable _⟩

/-- Two uploads from one address, none of them scored. -/
theorem copied_lists : ∃ page,
    stats (fun _ => []) 1 plainQueries copiedState.uploads (fun _ => none) 3 = .ok page ∧
      page.topUploaders.map TopUploaderDto.count = [2] ∧
      (page.topUploaders.map TopUploaderDto.count).sum ≤ page.totals.activeUploads := by
  have answered : stats (fun _ => []) 1 plainQueries copiedState.uploads (fun _ => none) 3 =
      .ok _ := rfl
  exact ⟨_, answered, by decide, (stats_lists answered).2.2.2.1⟩

/-! ## The totals along a run -/

/-- A value that only the lasting columns of a row decide. -/
def Lasting (value : Upload → Int) : Prop := ∀ row, value (identity row) = value row

theorem Lasting.same {value : Upload → Int} (lasting : Lasting value) {row later : Upload}
    (alike : identity later = identity row) : value later = value row := by
  rw [← lasting later, alike, lasting]

def activeTotal (value : Upload → Int) (storage : Storage) : Int :=
  sumCase Upload.active value storage.uploads.rows

def deletedTotal (value : Upload → Int) (storage : Storage) : Int :=
  sumCase (fun row => !row.active) value storage.uploads.rows

/-- What an upload adds to the table. -/
def entering (value : Upload → Int) (_ : Storage) : MaintenanceEvent → Int
  | .upload row _ => if row.fits then value row else 0
  | _ => 0

/-- What a deletion takes out of service. -/
def leaving (env : StoreEnv) (value : Upload → Int) (storage : Storage) : MaintenanceEvent → Int
  | .delete target now faults =>
      if !target.wellFormed || faults.select then 0
      else ((selectedRows env target now storage).map value).sum
  | _ => 0

/-- `DeleteResult`, the number that a deletion answers. -/
def reported (env : StoreEnv) (storage : Storage) : MaintenanceEvent → Int
  | .delete target now faults => (deleteMatching env faults target now storage).2.getD 0
  | _ => 0

def UpdatesSucceed (_ : Storage) : MaintenanceEvent → Prop
  | .delete _ _ faults => ∀ id, faults.statement id = false
  | _ => True

variable {env : StoreEnv} {storage : Storage} {value : Upload → Int}

theorem deleteRows_succeeds {faults : DeleteFaults} {now : Int}
    (done : ∀ id, faults.statement id = false) (rows : List Upload) (storage : Storage) :
    (deleteRows env faults now rows storage).2 = true := by
  induction rows generalizing storage with
  | nil => rfl
  | cons row rest ih =>
      rw [deleteRows_of_done env faults now (done row.id)]
      exact ih _

theorem reported_eq_leaving {event : MaintenanceEvent} (succeed : UpdatesSucceed storage event) :
    reported env storage event = leaving env (fun _ => 1) storage event := by
  cases event with
  | delete target now faults =>
      change ((deleteMatching env faults target now storage).2.getD 0 : Nat) = (if _ then _ else _ : Int)
      rw [sum_one, deleteMatching]
      split
      · rfl
      · have whole := @deleteRows_succeeds env faults now succeed
          (selectedRows env target now storage) storage
        dsimp only
        split
        · rfl
        · rename_i stopped
          rw [stopped] at whole
          cases whole
  | _ => rfl

/-- A selected row is marked and no other is. -/
theorem marked_iff_selected {target : DeleteTarget} {now : Int} {faults : DeleteFaults} {row : Upload}
    (accepted : ¬(!target.wellFormed || faults.select) = true)
    (done : ∀ id, faults.statement id = false) (member : row ∈ storage.uploads.rows) :
    row.id ∈ markedIds faults (handledRows env faults target now storage) ↔
      (target.whereClause env now row && row.active) = true := by
  rw [Bool.or_eq_true, not_or, Bool.not_eq_true', Bool.not_eq_false, Bool.not_eq_true] at accepted
  rw [handledRows_of_statements env now accepted.1 accepted.2 done, mem_markedIds,
    and_iff_left (done row.id)]
  constructor
  · intro listed
    obtain ⟨other, selected, same⟩ := List.mem_map.mp listed
    obtain ⟨otherMember, chosen⟩ := List.mem_filter.mp selected
    rwa [← Uploads.eq_of_same_id otherMember member same]
  · intro chosen
    exact List.mem_map_of_mem (List.mem_filter.mpr ⟨member, chosen⟩)

theorem activeTotal_deleteMatching {target : DeleteTarget} {now : Int} {faults : DeleteFaults}
    (done : ∀ id, faults.statement id = false) :
    activeTotal value (deleteMatching env faults target now storage).1 =
      activeTotal value storage - leaving env value storage (.delete target now faults) := by
  change _ = _ - if _ then _ else _
  split
  · rename_i refused
    rw [deleteMatching_of_refused refused, Int.sub_zero]
  · rename_i accepted
    unfold activeTotal selectedRows
    rw [deleteMatching_uploads, setAllDeleted_rows, sumCase_filter, eq_sub_iff_add_eq]
    unfold sumCase
    rw [List.map_map, ← List.sum_map_add]
    congr 1
    apply List.map_congr_left
    intro row member
    have marked := @marked_iff_selected env storage target now faults row accepted done member
    have inactive : (Uploads.markDeleted now row).active = false := rfl
    rw [Function.comp_apply]
    dsimp only
    by_cases selected : (target.whereClause env now row && row.active) = true
    · have active := (Bool.and_eq_true_iff.mp selected).2
      rw [if_pos (marked.mpr selected), inactive, if_pos selected, if_pos active]
      exact Int.zero_add _
    · rw [if_neg (mt marked.mp selected), if_neg selected]
      exact Int.add_zero _

theorem identity_of_unhashed {row later : Upload} (same : unhashed later = unhashed row) :
    identity later = identity row := by
  have identical : { unhashed later with deletedTimestamp := none } =
      { unhashed row with deletedTimestamp := none } := by rw [same]
  exact identical

/-- Every row has its value whether it is active or not. -/
def rowsTotal (value : Upload → Int) (storage : Storage) : Int :=
  (storage.uploads.rows.map value).sum

theorem deletedTotal_eq (value : Upload → Int) (storage : Storage) :
    deletedTotal value storage = rowsTotal value storage - activeTotal value storage :=
  sumCase_not

theorem rowsTotal_map {after : Storage} {change : Upload → Upload} (lasting : Lasting value)
    (rows : after.uploads.rows = storage.uploads.rows.map change)
    (same : ∀ row, identity (change row) = identity row) :
    rowsTotal value after = rowsTotal value storage := by
  unfold rowsTotal
  rw [rows, List.map_map]
  exact congrArg List.sum (List.map_congr_left fun row _ => lasting.same (same row))

theorem rowsTotal_rehashes {after : Storage} (lasting : Lasting value)
    (rehashes : Rehashes storage after) : rowsTotal value after = rowsTotal value storage := by
  obtain ⟨change, same, rows⟩ := rehashes.rows
  exact rowsTotal_map lasting rows fun row => identity_of_unhashed (same row)

theorem activeTotal_rehashes {after : Storage} (lasting : Lasting value)
    (rehashes : Rehashes storage after) :
    activeTotal value after = activeTotal value storage := by
  obtain ⟨change, same, rows⟩ := rehashes.rows
  unfold activeTotal sumCase
  rw [rows, List.map_map]
  refine congrArg List.sum (List.map_congr_left fun row _ => ?_)
  rw [Function.comp_apply, active_of_unhashed (same row),
    lasting.same (identity_of_unhashed (same row))]

theorem rows_deleteMatching (target : DeleteTarget) (now : Int) (faults : DeleteFaults) :
    ∃ change : Upload → Upload, (∀ row, identity (change row) = identity row) ∧
      (deleteMatching env faults target now storage).1.uploads.rows =
        storage.uploads.rows.map change := by
  rw [deleteMatching_uploads, setAllDeleted_rows]
  refine ⟨_, fun row => ?_, rfl⟩
  split <;> rfl

theorem rowsTotal_next (lasting : Lasting value) {event : MaintenanceEvent}
    (enabled : (maintenanceSystem env).enabled storage event) :
    rowsTotal value ((maintenanceSystem env).next storage event) =
      rowsTotal value storage + entering value storage event := by
  cases event with
  | upload row content =>
      change ((storeUpload env row content storage).uploads.rows.map value).sum =
        _ + if row.fits then _ else _
      split
      · rw [storeUpload_of_fits enabled.2.2 ‹_›]
        exact Int.add_comm _ _
      · rw [storeUpload_of_misfit (Bool.eq_false_iff.mpr ‹_›)]
        exact (Int.add_zero _).symm
  | delete target now faults =>
      obtain ⟨change, same, rows⟩ := rows_deleteMatching target now faults
      exact (rowsTotal_map lasting rows same).trans (Int.add_zero _).symm
  | dedup faults groups => exact (Int.add_zero _).symm
  | rehash faults ids =>
      exact (rowsTotal_rehashes lasting (rehashes_rehashed faults ids)).trans (Int.add_zero _).symm
  | clearHashes =>
      exact (rowsTotal_rehashes lasting (rehashes_clearHashes storage)).trans (Int.add_zero _).symm

theorem activeTotal_next (lasting : Lasting value) {event : MaintenanceEvent}
    (enabled : (maintenanceSystem env).enabled storage event)
    (succeed : UpdatesSucceed storage event) :
    activeTotal value ((maintenanceSystem env).next storage event) =
      activeTotal value storage + (entering value storage event - leaving env value storage event) := by
  cases event with
  | upload row content =>
      change sumCase _ _ (storeUpload env row content storage).uploads.rows =
        _ + ((if row.fits then _ else _) - 0)
      rw [Int.sub_zero]
      split
      · rw [storeUpload_of_fits enabled.2.2 ‹_›]
        unfold sumCase
        rw [List.map_cons, List.sum_cons, if_pos enabled.1]
        exact Int.add_comm _ _
      · rw [storeUpload_of_misfit (Bool.eq_false_iff.mpr ‹_›)]
        exact (Int.add_zero _).symm
  | delete target now faults =>
      change activeTotal value (deleteMatching env faults target now storage).1 = _ + (0 - _)
      rw [activeTotal_deleteMatching succeed, Int.zero_sub]
      rfl
  | dedup faults groups => exact (Int.add_zero _).symm
  | rehash faults ids =>
      exact (activeTotal_rehashes lasting (rehashes_rehashed faults ids)).trans (Int.add_zero _).symm
  | clearHashes =>
      exact (activeTotal_rehashes lasting (rehashes_clearHashes storage)).trans (Int.add_zero _).symm

theorem lasting_one : Lasting fun _ => 1 := fun _ => rfl

theorem lasting_fileSize : Lasting Upload.fileSize := fun _ => rfl

/-- Between any two states of a run in which no update fails, the deleted uploads grow
by what the deletions answered, and the active ones and their bytes by what was
accepted less what was deleted. -/
theorem run_stats_reconcile {start : Storage} {events : List MaintenanceEvent}
    (run : ((maintenanceSystem env).restrict UpdatesSucceed).Run start events storage)
    (earlier later : Int) :
    (globalStats storage.uploads later).deletedUploads =
        (globalStats start.uploads earlier).deletedUploads +
          (maintenanceSystem env).totalAlong start (reported env) events ∧
      (globalStats storage.uploads later).activeUploads =
        (globalStats start.uploads earlier).activeUploads +
          (maintenanceSystem env).totalAlong start
            (fun state event => entering (fun _ => 1) state event - reported env state event)
            events ∧
      (globalStats storage.uploads later).activeBytes =
        (globalStats start.uploads earlier).activeBytes +
          (maintenanceSystem env).totalAlong start (fun state event =>
            entering Upload.fileSize state event - leaving env Upload.fileSize state event)
            events := by
  have active {amount : Storage → MaintenanceEvent → Int} {value : Upload → Int}
      (step : ∀ state event,
        ((maintenanceSystem env).restrict UpdatesSucceed).enabled state event →
          activeTotal value ((maintenanceSystem env).next state event) =
            activeTotal value state + amount state event) :
      activeTotal value storage =
        activeTotal value start + (maintenanceSystem env).totalAlong start amount events :=
    run.accounts step
  have deleted : deletedTotal (fun _ => 1) storage = deletedTotal (fun _ => 1) start +
      (maintenanceSystem env).totalAlong start (reported env) events := by
    refine run.accounts fun state event enabled => ?_
    rw [deletedTotal_eq, deletedTotal_eq, rowsTotal_next lasting_one enabled.1,
      activeTotal_next lasting_one enabled.1 enabled.2, reported_eq_leaving enabled.2]
    omega
  refine ⟨deleted, active fun state event enabled => ?_, active fun state event enabled => ?_⟩
  · rw [reported_eq_leaving enabled.2]
    exact activeTotal_next lasting_one enabled.1 enabled.2
  · exact activeTotal_next lasting_fileSize enabled.1 enabled.2

def firstDeleted : List MaintenanceEvent := [.delete (.byId firstUuid) 3 .none]

/-- One of two empty uploads is deleted. -/
theorem copied_reconciles :
    let state := (maintenanceSystem plainEnv).after copiedState firstDeleted
    (globalStats state.uploads 4).deletedUploads = 0 + 1 ∧
      (globalStats state.uploads 4).activeUploads = 2 + (0 + (0 - 1)) ∧
      (globalStats state.uploads 4).activeBytes = 0 + (0 + (0 - 0)) := by
  have run : ((maintenanceSystem plainEnv).restrict UpdatesSucceed).Run copiedState firstDeleted _ :=
    .of_admits ⟨trivial, trivial, fun _ => rfl⟩
  exact run_stats_reconcile run 3 4

end Filehost.Admin
