import Filehost.Cache.SuspectCache
import Filehost.Data.Tallies

namespace Filehost.Database

open Filehost.Cache Filehost.Data.Paging Filehost.Data.Tallies Filehost.Ip Filehost.Upload

/-! # Statistics of the table of uploads -/

structure GlobalStats where
  activeUploads : Int
  activeBytes : Int
  deletedUploads : Int
  uploadsLast24h : Int
  bytesLast24h : Int

/-- `SUM(CASE WHEN … THEN … ELSE 0 END)`. -/
def sumCase (selects : Upload → Bool) (value : Upload → Int) (rows : List Upload) : Int :=
  (rows.map fun row => if selects row then value row else 0).sum

def withinDay (now : Int) (row : Upload) : Bool := now - secondsPerDay < row.uploadTimestamp

def globalStats (table : Uploads) (now : Int) : GlobalStats where
  activeUploads := sumCase Upload.active (fun _ => 1) table.rows
  activeBytes := sumCase Upload.active Upload.fileSize table.rows
  deletedUploads := sumCase (fun row => !row.active) (fun _ => 1) table.rows
  uploadsLast24h := sumCase (withinDay now) (fun _ => 1) table.rows
  bytesLast24h := sumCase (withinDay now) Upload.fileSize table.rows

structure TopUploader where
  ip : List UInt8
  count : Int
  bytes : Int

def topUploaderIps (table : Uploads) (sorting : Sorting (@Group.count Upload (List UInt8)))
    (limit : Nat) : List TopUploader :=
  (leaders Upload.uploaderIp sorting limit (table.rows.filter Upload.active)).map fun group =>
    ⟨group.key, group.count, group.total Upload.fileSize⟩

structure TopNsfwUploader where
  ip : List UInt8
  count : Int
  avgScore : ℚ

def scoredAtLeast (scores : Scores) (minScore : ℚ) (row : Upload) : Bool :=
  (scores row.id).any fun score => minScore ≤ score

/-- `AVG(nsfw_score)`, which the answer rounds. -/
def averageScore (scores : Scores) (rows : List Upload) : ℚ :=
  (rows.map fun row => (scores row.id).getD 0).sum / rows.length

def topNsfwUploaderIps (table : Uploads) (scores : Scores) (minScore : ℚ)
    (sorting : Sorting (@Group.count Upload (List UInt8))) (limit : Nat) : List TopNsfwUploader :=
  (leaders Upload.uploaderIp sorting limit
    (table.rows.filter fun row => row.active && scoredAtLeast scores minScore row)).map
      fun group => ⟨group.key, group.count, averageScore scores group.members⟩

/-! ## Sums -/

variable {rows : List Upload} {selects : Upload → Bool} {value : Upload → Int} {table : Uploads}

theorem sumCase_filter : ((rows.filter selects).map value).sum = sumCase selects value rows := by
  unfold sumCase
  induction rows with
  | nil => rfl
  | cons row rest ih =>
      by_cases selected : selects row <;> simp [selected, ih]

theorem sumCase_not : sumCase (fun row => !selects row) value rows =
    (rows.map value).sum - sumCase selects value rows := by
  unfold sumCase
  induction rows with
  | nil => rfl
  | cons row rest ih =>
      rw [List.map_cons, List.sum_cons, ih]
      by_cases selected : selects row
      · simp only [selected, List.map_cons, List.sum_cons, Bool.not_true, Bool.false_eq_true,
          if_false, if_true]
        omega
      · simp only [selected, List.map_cons, List.sum_cons, Bool.not_false, Bool.false_eq_true,
          if_false, if_true]
        omega

theorem sum_one (rows : List Upload) : (rows.map fun _ => (1 : Int)).sum = rows.length := by
  simp

/-- What the list of uploaders shows is part of what the totals count, all of it if
there is room for every address. -/
theorem topUploaderIps_within (now : Int) (sorting : Sorting (@Group.count Upload (List UInt8)))
    (limit : Nat) :
    ((topUploaderIps table sorting limit).map TopUploader.count).sum ≤
        (globalStats table now).activeUploads ∧
      ((∀ row ∈ table.rows, 0 ≤ row.fileSize) →
        ((topUploaderIps table sorting limit).map TopUploader.bytes).sum ≤
          (globalStats table now).activeBytes) ∧
      (((table.rows.filter Upload.active).map Upload.uploaderIp).dedup.length ≤ limit →
        ((topUploaderIps table sorting limit).map TopUploader.count).sum =
            (globalStats table now).activeUploads ∧
          ((topUploaderIps table sorting limit).map TopUploader.bytes).sum =
            (globalStats table now).activeBytes) := by
  have counts : (topUploaderIps table sorting limit).map TopUploader.count =
      (leaders Upload.uploaderIp sorting limit (table.rows.filter Upload.active)).map
        (Group.total fun _ => 1) := by
    rw [topUploaderIps, List.map_map]
    exact List.map_congr_left fun group _ => group.total_one.symm
  have bytes : (topUploaderIps table sorting limit).map TopUploader.bytes =
      (leaders Upload.uploaderIp sorting limit (table.rows.filter Upload.active)).map
        (Group.total Upload.fileSize) := by
    rw [topUploaderIps, List.map_map]
    rfl
  rw [counts, bytes]
  change _ ≤ sumCase Upload.active _ _ ∧ (_ → _ ≤ sumCase Upload.active _ _) ∧
    (_ → _ = sumCase Upload.active _ _ ∧ _ = sumCase Upload.active _ _)
  rw [← sumCase_filter, ← sumCase_filter]
  exact ⟨sum_leaders_le fun _ _ => Int.one_nonneg,
    fun sizes => sum_leaders_le fun row member => sizes row (List.mem_filter.mp member).1,
    fun room => ⟨sum_leaders room, sum_leaders room⟩⟩

/-- An average is not below what all its scores reach. -/
theorem averageScore_ge {scores : Scores} {minScore : ℚ} (present : rows ≠ [])
    (atLeast : ∀ row ∈ rows, scoredAtLeast scores minScore row = true) :
    minScore ≤ averageScore scores rows := by
  have positive : (0 : ℚ) < rows.length := by exact_mod_cast List.length_pos_of_ne_nil present
  have sum := List.card_nsmul_le_sum (rows.map fun row => (scores row.id).getD 0) minScore ?_
  · rwa [List.length_map, nsmul_eq_mul, mul_comm, ← le_div_iff₀ positive] at sum
  · intro value listed
    obtain ⟨row, member, rfl⟩ := List.mem_map.mp listed
    have enough := atLeast row member
    unfold scoredAtLeast at enough
    cases scored : scores row.id with
    | none =>
        rw [scored] at enough
        cases enough
    | some score =>
        rw [scored] at enough
        exact of_decide_eq_true enough

end Filehost.Database
