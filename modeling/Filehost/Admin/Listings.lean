import Filehost.Admin.BanHandlers
import Filehost.Data.Paging
import Filehost.Store.Sharing

/-! # The lists of the admin pages

A client asks for a list page by page.  The rows stay, but each query sorts them anew. -/

namespace Filehost.Database

open Filehost.Data.Paging Filehost.Ip

variable {Score : Type}

/-- The conditions that a query on uploads may have. -/
structure UploadFilter (Score : Type) where
  ip : Option IpAddr
  slug : Option (List Char)
  includeDeleted : Bool
  minNsfwScore : Option Score

/-- The column `nsfw_score`, and `>=` of two of its numbers. -/
structure NsfwScores (Score : Type) where
  column : Store.Uuid → Option Score
  atLeast : Score → Score → Bool

def UploadFilter.selects (collation : Collation) (scores : NsfwScores Score)
    (filter : UploadFilter Score) (row : Upload) : Bool :=
  (filter.includeDeleted || row.active) &&
    (filter.minNsfwScore.all fun least =>
      (scores.column row.id).any fun score => scores.atLeast score least) &&
    (filter.ip.all fun ip => row.uploaderIp = toDbBytes ip) &&
    filter.slug.all fun slug => collation.equal row.slug slug

def Uploads.matching (collation : Collation) (scores : NsfwScores Score) (table : Uploads)
    (filter : UploadFilter Score) : List Upload :=
  table.rows.filter (filter.selects collation scores)

/-- The answer when the database sorts as it does for this query.  No handler asks with a
negative limit or offset. -/
def Uploads.listUploads (collation : Collation) (scores : NsfwScores Score) (table : Uploads)
    (sorting : Sorting Upload.uploadTimestamp) (filter : UploadFilter Score) (limit offset : Nat) :
    List Upload :=
  page (sorting.arrange (table.matching collation scores filter)) limit offset

def BanTables.listBannedIps (tables : BanTables) (sorting : Sorting BannedIpRange.id)
    (limit offset : Nat) : List BannedIpRange :=
  page (sorting.arrange tables.ipRanges) limit offset

theorem Uploads.matching_nodup (collation : Collation) (scores : NsfwScores Score)
    (table : Uploads) (filter : UploadFilter Score) :
    (table.matching collation scores filter).Nodup :=
  table.distinct.of_map.filter _

/-- The list of bans is sorted by the primary key, and its pages add up. -/
theorem BanTables.listBannedIps_missesNothing (tables : BanTables)
    (primary : (tables.ipRanges.map BannedIpRange.id).Nodup) {size : Nat} (positive : 0 < size)
    (sorts : Nat → Sorting BannedIpRange.id) :
    MissesNothing (fun index => tables.listBannedIps (sorts index) size (index * size))
      tables.ipRanges size :=
  (missesNothing_iff positive primary.of_map).mpr (groupsWhole_of_unique primary size) sorts

end Filehost.Database

namespace Filehost.Admin

open Filehost.Data.Paging Filehost.Database Filehost.Ip Filehost.Store

variable {Score : Type} (collation : Collation) (scores : NsfwScores Score)

structure ListUploadsQuery (Score : Type) where
  ip : Option (List Char)
  slug : Option (List Char)
  includeDeleted : Option Bool
  minNsfwScore : Option Score
  limit : Option Int
  offset : Option Int

/-- `limit.unwrap_or(100).clamp(1, 1000)`. -/
def clampLimit (limit : Option Int) : Nat := (max 1 (min 1000 (limit.getD 100))).toNat

/-- `offset.unwrap_or(0).max(0)`. -/
def clampOffset (offset : Option Int) : Nat := (max 0 (offset.getD 0)).toNat

def ListUploadsQuery.filter (query : ListUploadsQuery Score) :
    Except JsonError (UploadFilter Score) :=
  match query.ip.map parseIpAddr with
  | some none => .error (badRequest "Invalid ip")
  | ip => .ok ⟨ip.join, query.slug, query.includeDeleted.getD false, query.minNsfwScore⟩

def listUploads (table : Uploads) (sorting : Sorting Upload.uploadTimestamp)
    (query : ListUploadsQuery Score) : Except JsonError (List Upload) := do
  let filter ← query.filter
  return table.listUploads collation scores sorting filter (clampLimit query.limit)
    (clampOffset query.offset)

/-- The same query for another page. -/
def ListUploadsQuery.at (query : ListUploadsQuery Score) (limit offset : Nat) :
    ListUploadsQuery Score :=
  { query with limit := some limit, offset := some offset }

theorem clampLimit_natCast {limit : Nat} (positive : 0 < limit) :
    clampLimit (some limit) = min limit 1000 := by
  simp only [clampLimit, Option.getD_some]
  omega

theorem clampOffset_natCast (offset : Nat) : clampOffset (some offset) = offset := by
  simp only [clampOffset, Option.getD_some]
  omega

theorem listUploads_at {query : ListUploadsQuery Score} {filter : UploadFilter Score}
    (asked : query.filter = .ok filter) (table : Uploads)
    (sorting : Sorting Upload.uploadTimestamp) {size : Nat} (positive : 0 < size) (offset : Nat) :
    listUploads collation scores table sorting (query.at size offset) =
      .ok (table.listUploads collation scores sorting filter (min size 1000) offset) := by
  have same : (query.at size offset).filter = .ok filter := asked
  rw [listUploads, same, ListUploadsQuery.at, clampLimit_natCast positive, clampOffset_natCast]
  rfl

/-- Whatever order the database takes for each query, the pages of `size` rows hold every
matching row once. -/
def PagesComplete (table : Uploads) (filter : UploadFilter Score) (size : Nat) : Prop :=
  ∀ sorts : Nat → Sorting Upload.uploadTimestamp,
    MissesNothing
      (fun index => table.listUploads collation scores (sorts index) filter size (index * size))
      (table.matching collation scores filter) size

/-- The same for a client that steps by the limit it asks for. -/
def AnswersComplete (table : Uploads) (query : ListUploadsQuery Score)
    (filter : UploadFilter Score) (size : Nat) : Prop :=
  ∀ sorts : Nat → Sorting Upload.uploadTimestamp, ∃ answers : Nat → List Upload,
    (∀ index, listUploads collation scores table (sorts index) (query.at size (index * size)) =
      .ok (answers index)) ∧
    MissesNothing answers (table.matching collation scores filter) size

theorem pagesComplete_iff (table : Uploads) (filter : UploadFilter Score) {size : Nat}
    (positive : 0 < size) :
    PagesComplete collation scores table filter size ↔
      GroupsWhole Upload.uploadTimestamp (table.matching collation scores filter) size :=
  missesNothing_iff positive (table.matching_nodup collation scores filter)

theorem answersComplete_iff {query : ListUploadsQuery Score} {filter : UploadFilter Score}
    (asked : query.filter = .ok filter) (table : Uploads) {size : Nat} (positive : 0 < size) :
    AnswersComplete collation scores table query filter size ↔
      ∀ sorts : Nat → Sorting Upload.uploadTimestamp,
        MissesNothing (pages sorts (table.matching collation scores filter) (min size 1000) size)
          (table.matching collation scores filter) size := by
  refine forall_congr' fun sorts => ?_
  have answered (index : Nat) := listUploads_at collation scores asked table (sorts index) positive
    (index * size)
  constructor
  · intro complete
    obtain ⟨answers, given, misses⟩ := complete
    have same : answers =
        pages sorts (table.matching collation scores filter) (min size 1000) size :=
      funext fun index => Except.ok.inj ((given index).symm.trans (answered index))
    exact same ▸ misses
  · exact fun misses => ⟨_, answered, misses⟩

/-- The pages of a list of uploads miss nothing exactly when none begins between two uploads of one
second.  Asked through the handler, pages are cut off at 1000 rows besides. -/
theorem listUploads_missesNothing_iff (table : Uploads) (filter : UploadFilter Score) {size : Nat}
    (positive : 0 < size) :
    (PagesComplete collation scores table filter size ↔
      GroupsWhole Upload.uploadTimestamp (table.matching collation scores filter) size) ∧
    ∀ query : ListUploadsQuery Score, query.filter = .ok filter →
      (AnswersComplete collation scores table query filter size ↔
        (size ≤ 1000 ∨ (table.matching collation scores filter).length ≤ 1000) ∧
          GroupsWhole Upload.uploadTimestamp (table.matching collation scores filter) size) := by
  refine ⟨pagesComplete_iff collation scores table filter positive, fun query asked => ?_⟩
  rw [answersComplete_iff collation scores asked table positive]
  have nodup := table.matching_nodup collation scores filter
  by_cases accepted : size ≤ 1000
  · rw [Nat.min_eq_left accepted, missesNothing_iff positive nodup]
    exact ⟨fun whole => ⟨.inl accepted, whole⟩, And.right⟩
  · rw [Nat.min_eq_right (by omega), missesNothing_short_iff (by omega) nodup]
    constructor
    · exact fun few => ⟨.inr few, groupsWhole_of_length_le (by omega)⟩
    · exact fun bounded => bounded.1.resolve_left accepted

def burst : Uploads where
  rows := [emptyUpload firstUuid 1700000000 "abc", emptyUpload secondUuid 1700000000 "def"]
  distinct := List.nodup_cons.mpr ⟨by decide, List.nodup_singleton _⟩

def unscored : NsfwScores Int := ⟨fun _ => none, fun score least => decide (least ≤ score)⟩

def anyQuery : ListUploadsQuery Int := ⟨none, none, none, none, none, none⟩

def activeUploads : UploadFilter Int := ⟨none, none, false, none⟩

theorem listUploads_missesNothing_burst :
    PagesComplete .binary unscored burst activeUploads 2 ∧
      AnswersComplete .binary unscored burst anyQuery activeUploads 2 := by
  have whole : GroupsWhole Upload.uploadTimestamp
      (burst.matching .binary unscored activeUploads) 2 := groupsWhole_of_length_le (by decide)
  have complete := listUploads_missesNothing_iff .binary unscored burst activeUploads
    (by decide : 0 < 2)
  exact ⟨complete.1.mpr whole, (complete.2 anyQuery rfl).mpr ⟨.inl (by decide), whole⟩⟩

/-- Two uploads of one second, read in either order: the first is on both pages. -/
theorem upload_of_burst_missed :
    burst.listUploads .binary unscored (.stable _) activeUploads 1 0 =
        [emptyUpload firstUuid 1700000000 "abc"] ∧
      burst.listUploads .binary unscored (.backwards _) activeUploads 1 1 =
        [emptyUpload firstUuid 1700000000 "abc"] ∧
      emptyUpload secondUuid 1700000000 "def" ∈ burst.matching .binary unscored activeUploads ∧
      ¬PagesComplete .binary unscored burst activeUploads 1 := by
  have first : burst.listUploads .binary unscored (.stable _) activeUploads 1 0 =
      [emptyUpload firstUuid 1700000000 "abc"] := by decide
  have second : burst.listUploads .binary unscored (.backwards _) activeUploads 1 1 =
      [emptyUpload firstUuid 1700000000 "abc"] := by decide
  refine ⟨first, second, by decide, fun complete => ?_⟩
  have pages := complete (fun index => if index = 0 then .stable _ else .backwards _) 2 (by decide)
  revert pages
  decide

end Filehost.Admin
