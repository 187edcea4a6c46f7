import Filehost.Cache.SuspectCache
import Filehost.Store.Sharing

namespace Filehost.Cache

open Filehost.Data Filehost.Database Filehost.Store

/-! # The rensfw command

It scores the files of images that have no score, or of all of them. -/

/-- What the model makes of the content of a file, `none` where that is no image to it. -/
abbrev NsfwModel := List UInt8 → Option ℚ

/-- `LIKE` with a pattern that ends in its only wildcard, character by character. -/
def startsLike (collation : Collation) : List Char → List Char → Bool
  | [], _ => true
  | _ :: _, [] => false
  | char :: lead, other :: text => collation.equal [other] [char] && startsLike collation lead text

def isImage (collation : Collation) (row : Upload) : Bool :=
  row.contentType.any (startsLike collation "image/".toList)

def selectedForScan (collation : Collation) (scores : Scores) (all : Bool) (row : Upload) : Bool :=
  row.active && isImage collation row && (all || (scores row.id).isNone)

/-- The listing has no `ORDER BY`: this is one order of it. -/
def uploadsForNsfwScan (collation : Collation) (table : Uploads) (scores : Scores) (all : Bool) :
    List Uuid :=
  (table.rows.filter (selectedForScan collation scores all)).map Upload.id

/-- `UPDATE uploads SET nsfw_score = ? WHERE id = ?`. -/
def Scores.updateNsfwScore (scores : Scores) (id : Uuid) (score : ℚ) : Scores :=
  Function.update scores id (some score)

/-- The file is opened through its links. -/
def classify (env : StoreEnv) (model : NsfwModel) (files : FileSystem) (id : Uuid) : Option ℚ :=
  (files.read env.hops (uuidToPath env.root id)).bind model

structure RensfwFaults where
  reading : Uuid → Bool
  update : Uuid → Bool

structure RensfwProgress where
  scores : Scores
  scanned : Nat
  errors : Nat

def RensfwFaults.classify (faults : RensfwFaults) (env : StoreEnv) (model : NsfwModel)
    (files : FileSystem) (id : Uuid) : Option ℚ :=
  if faults.reading id then none else Cache.classify env model files id

/-- A score that cannot be written is only logged. -/
def rensfwOne (env : StoreEnv) (model : NsfwModel) (faults : RensfwFaults) (dryRun : Bool)
    (files : FileSystem) (progress : RensfwProgress) (id : Uuid) : RensfwProgress :=
  match faults.classify env model files id with
  | none => { progress with errors := progress.errors + 1 }
  | some score =>
      { progress with
        scores :=
          if dryRun || faults.update id then progress.scores
          else Scores.updateNsfwScore progress.scores id score
        scanned := progress.scanned + 1 }

/-- There is no `model` where none is configured or it cannot be loaded, and no
`listing` where the query fails.  Either ends the command. -/
def rensfw (env : StoreEnv) (model : Option NsfwModel) (faults : RensfwFaults) (dryRun : Bool)
    (listing : Option (List Uuid)) (files : FileSystem) (scores : Scores) :
    Option RensfwProgress := do
  let model ← model
  let ids ← listing
  return ids.foldl (rensfwOne env model faults dryRun files) ⟨scores, 0, 0⟩

/-! ## What a run of the command does -/

/-- The score that the run writes for an upload it is given. -/
def newScore (env : StoreEnv) (model : NsfwModel) (faults : RensfwFaults) (dryRun : Bool)
    (files : FileSystem) (id : Uuid) : Option ℚ :=
  if dryRun || faults.update id then none else faults.classify env model files id

def RensfwFaults.Faultless (faults : RensfwFaults) : Prop :=
  ∀ id, faults.reading id = false ∧ faults.update id = false

variable {collation : Collation} {env : StoreEnv} {model : NsfwModel} {faults : RensfwFaults}
  {dryRun all : Bool} {files : FileSystem} {scores : Scores} {table : Uploads} {ids : List Uuid}
  {progress : RensfwProgress}

theorem rensfwOne_scores (id other : Uuid) :
    (rensfwOne env model faults dryRun files progress id).scores other =
      if other = id then (newScore env model faults dryRun files id).or (progress.scores id)
      else progress.scores other := by
  simp only [rensfwOne, newScore]
  cases faults.classify env model files id with
  | none =>
      simp only [ite_self, Option.none_or]
      split <;> simp_all
  | some score =>
      cases dryRun || faults.update id with
      | true =>
          simp only [if_true, Option.none_or]
          split <;> simp_all
      | false =>
          simp only [Bool.false_eq_true, if_false, Option.some_or]
          exact Function.update_apply ..

theorem foldl_rensfwOne_scores (ids : List Uuid) (id : Uuid) :
    (ids.foldl (rensfwOne env model faults dryRun files) progress).scores id =
      if id ∈ ids then (newScore env model faults dryRun files id).or (progress.scores id)
      else progress.scores id := by
  induction ids generalizing progress with
  | nil => rfl
  | cons first rest ih =>
      rw [List.foldl_cons, ih, rensfwOne_scores]
      by_cases here : id = first
      · subst here
        simp only [if_true, List.mem_cons, true_or]
        cases newScore env model faults dryRun files id <;> simp
      · simp [here]

theorem foldl_rensfwOne_scanned (ids : List Uuid) :
    (ids.foldl (rensfwOne env model faults dryRun files) progress).scanned = progress.scanned +
      ids.countP fun id => (faults.classify env model files id).isSome := by
  induction ids generalizing progress with
  | nil => rfl
  | cons id rest ih =>
      rw [List.foldl_cons, ih, List.countP_cons, rensfwOne]
      cases faults.classify env model files id with
      | none => simp
      | some score =>
          simp only [Option.isSome_some, if_true]
          omega

theorem foldl_rensfwOne_total (ids : List Uuid) :
    (ids.foldl (rensfwOne env model faults dryRun files) progress).scanned +
        (ids.foldl (rensfwOne env model faults dryRun files) progress).errors =
      progress.scanned + progress.errors + ids.length := by
  induction ids generalizing progress with
  | nil => rfl
  | cons id rest ih =>
      rw [List.foldl_cons, ih, rensfwOne, List.length_cons]
      cases faults.classify env model files id with
      | none =>
          dsimp only
          omega
      | some score =>
          dsimp only
          omega

theorem mem_uploadsForNsfwScan {row : Upload} (member : row ∈ table.rows) :
    row.id ∈ uploadsForNsfwScan collation table scores all ↔
      selectedForScan collation scores all row = true := by
  simp only [uploadsForNsfwScan, List.mem_map, List.mem_filter]
  constructor
  · rintro ⟨other, ⟨otherMember, selected⟩, same⟩
    rwa [← Uploads.eq_of_same_id otherMember member same]
  · exact fun selected => ⟨row, ⟨member, selected⟩, rfl⟩

theorem rensfw_eq (ids : List Uuid) :
    rensfw env (some model) faults dryRun (some ids) files scores =
      some (ids.foldl (rensfwOne env model faults dryRun files) ⟨scores, 0, 0⟩) := rfl

theorem foldl_rensfwOne_of_none {model : NsfwModel}
    (none : ∀ id ∈ ids, newScore env model faults dryRun files id = none) :
    (ids.foldl (rensfwOne env model faults dryRun files) ⟨scores, 0, 0⟩).scores = scores := by
  funext id
  rw [foldl_rensfwOne_scores]
  split
  · rename_i member
    rw [none id member, Option.none_or]
  · rfl

/-- What a faultless run leaves without a score cannot be given one. -/
theorem classify_of_unscored {row : Upload} (member : row ∈ table.rows) (faultless : faults.Faultless)
    (listed : ids.Perm (uploadsForNsfwScan collation table scores all))
    (left : selectedForScan collation
      (ids.foldl (rensfwOne env model faults false files) ⟨scores, 0, 0⟩).scores false row = true) :
    classify env model files row.id = none := by
  obtain ⟨reads, writes⟩ := faultless row.id
  rw [selectedForScan, Bool.and_eq_true, Bool.false_or, Option.isNone_iff_eq_none,
    foldl_rensfwOne_scores] at left
  obtain ⟨image, unscored⟩ := left
  by_cases selected : row.id ∈ ids
  · rw [if_pos selected] at unscored
    have none := (Option.or_eq_none_iff.mp unscored).1
    simpa [newScore, RensfwFaults.classify, reads, writes] using none
  · have none : scores row.id = none := (if_neg selected).symm.trans unscored
    refine absurd (listed.mem_iff.mpr ((mem_uploadsForNsfwScan member).mpr ?_)) selected
    rw [selectedForScan, image, none, Option.isNone_none, Bool.or_true, Bool.and_true]

/-- In whatever order the uploads are listed and whatever fails, only scores of selected
uploads change, and each is counted once.  After a run without failures there is nothing
left that the model can score. -/
theorem rensfw_settles (listed : ids.Perm (uploadsForNsfwScan collation table scores all)) :
    ∃ done, rensfw env (some model) faults dryRun (some ids) files scores = some done ∧
      (∀ row ∈ table.rows, done.scores row.id =
        if selectedForScan collation scores all row = true then
          (newScore env model faults dryRun files row.id).or (scores row.id)
        else scores row.id) ∧
      done.scanned = (uploadsForNsfwScan collation table scores all).countP
        (fun id => (faults.classify env model files id).isSome) ∧
      done.scanned + done.errors = (uploadsForNsfwScan collation table scores all).length ∧
      (dryRun = true → done.scores = scores) ∧
      (dryRun = false → faults.Faultless → ∀ laterFaults laterDryRun laterIds,
        laterIds.Perm (uploadsForNsfwScan collation table done.scores false) →
          ∃ again, rensfw env (some model) laterFaults laterDryRun (some laterIds) files done.scores =
            some again ∧ again.scores = done.scores ∧ again.scanned = 0) := by
  refine ⟨_, rensfw_eq ids, fun row member => ?_, ?_, ?_, ?_, ?_⟩
  · rw [foldl_rensfwOne_scores]
    simp only [listed.mem_iff, mem_uploadsForNsfwScan member]
  · rw [foldl_rensfwOne_scanned, ← listed.countP_eq]
    exact Nat.zero_add _
  · rw [foldl_rensfwOne_total, listed.length_eq]
    exact Nat.zero_add _
  · rintro rfl
    exact foldl_rensfwOne_of_none fun id _ => rfl
  · rintro rfl faultless laterFaults laterDryRun laterIds laterListed
    have nothing : ∀ id ∈ laterIds, laterFaults.classify env model files id = none := by
      intro id member
      obtain ⟨row, selected, rfl⟩ := List.mem_map.mp (laterListed.mem_iff.mp member)
      obtain ⟨rowMember, left⟩ := List.mem_filter.mp selected
      rw [RensfwFaults.classify, classify_of_unscored rowMember faultless listed left, ite_self]
    refine ⟨_, rensfw_eq laterIds, ?_, ?_⟩
    · exact foldl_rensfwOne_of_none fun id member => by
        rw [newScore, nothing id member, ite_self]
    · rw [foldl_rensfwOne_scanned, Nat.zero_add]
      exact List.countP_eq_zero.mpr fun id member => by rw [nothing id member]; simp

def asImage (row : Upload) : Upload := { row with contentType := some "image/png".toList }

/-- Two images, of which the second one's file is lost. -/
def lostImages : Storage where
  uploads :=
    { rows := [asImage (emptyUpload secondUuid 2 "def"), asImage (emptyUpload firstUuid 1 "abc")]
      distinct := by decide }
  files path := if path = uuidToPath plainEnv.root firstUuid then some (.file []) else none

def sureModel : NsfwModel := fun _ => some 1

def noRensfwFaults : RensfwFaults := ⟨fun _ => false, fun _ => false⟩

theorem lostImages_scored : ∃ done,
    rensfw plainEnv (some sureModel) noRensfwFaults false (some [secondUuid, firstUuid])
        lostImages.files (fun _ => none) = some done ∧
      done.scores firstUuid = some 1 ∧ done.scores secondUuid = none ∧
      done.scanned + done.errors = 2 := by
  obtain ⟨done, ran, scores, -, total, -⟩ := @rensfw_settles plainEnv.collation plainEnv sureModel
    noRensfwFaults false false lostImages.files (fun _ => none) lostImages.uploads
    [secondUuid, firstUuid] (.of_eq (by decide))
  have first := scores (asImage (emptyUpload firstUuid 1 "abc")) (by decide)
  have second := scores (asImage (emptyUpload secondUuid 2 "def")) (by decide)
  exact ⟨done, ran, first.trans rfl, second.trans rfl, total⟩

end Filehost.Cache
