import Filehost.Store.Sharing
import Filehost.Upload.Traffic

namespace Filehost.Upload

open Filehost.Data Filehost.Database Filehost.Store

/-! # What interleaved uploads and deletions keep

An identifier that an upload has drawn belongs to it until its row is inserted, and a
file of the table is touched by deletions only. -/

/-- The file of an upload: its hash and its size are those of the row. -/
structure Describes (env : StoreEnv) (row : Upload) (content : List UInt8) : Prop where
  hash : row.hash = some (env.blake3 content)
  size : row.fileSize = content.length

namespace Traffic

def ids (state : Traffic) : List Uuid := state.storage.uploads.rows.map Upload.id

/-- An upload stands between its save and its insert. -/
def Saving (state : Traffic) (id : Uuid) : Prop := ∃ task, (state.uploads task).saved? = some id

/-- A deletion stands between the removal of a file and the mark of its row. -/
def Removing (state : Traffic) (id : Uuid) : Prop :=
  ∃ task, (state.deletions task).removed? = some id

/-- What holds of the rows and the files at any moment. -/
structure Consistent (env : StoreEnv) (state : Traffic) : Prop where
  held : ∀ row ∈ state.storage.uploads.rows, ∀ node, state.node env row.id = some node →
    ∃ content, node = .file content ∧ Describes env row content
  kept : ∀ row ∈ state.storage.uploads.rows, row.active = true → state.node env row.id = none →
    state.Removing row.id ∨ row.id ∈ state.stranded
  owned : ∀ path node, state.storage.files path = some node →
    ∃ id, path = uuidToPath env.root id ∧
      (state.storage.uploads.isActive id = true ∨ state.Saving id ∨ id ∈ state.littered)

/-- No two uploads have drawn one identifier. -/
def Apart (uploads : Nat → UploadTask) : Prop :=
  ∀ left right id, (uploads left).uuid? = some id → (uploads right).uuid? = some id → left = right

end Traffic

/-- The row is that of the request's file, which is where the stage says. -/
def UploadTask.Sound (env : StoreEnv) (state : Traffic) : UploadTask → Prop
  | .idle => True
  | .prepared request _ row => row.id ∉ state.ids ∧ state.node env row.id = none ∧
      row.active = true ∧ Describes env row request.file.content
  | .saved request _ row => row.id ∉ state.ids ∧
      state.node env row.id = some (.file request.file.content) ∧
      row.active = true ∧ Describes env row request.file.content

/-- Its rows are in the table, and the file it has removed is gone or litter. -/
structure DeleteTask.Sound (env : StoreEnv) (state : Traffic) (stage : DeleteTask) : Prop where
  listed : ∀ row ∈ stage.rows, row.id ∈ state.ids
  gone : ∀ id, stage.removed? = some id → state.node env id = none ∨ id ∈ state.littered

structure Traffic.Settled (env : StoreEnv) (state : Traffic) : Prop extends
    state.Consistent env where
  uploads : ∀ task, (state.uploads task).Sound env state
  apart : Apart state.uploads
  deletions : ∀ task, (state.deletions task).Sound env state

variable {env : StoreEnv} {settings : Settings} {state after : Traffic} {request : FileRequest}
  {answers : Answers} {row : Upload} {task : Nat}

/-! ## Frames -/

theorem DeleteTask.over_rows (rows : List Upload) : (DeleteTask.over rows).rows = rows := by
  cases rows <;> rfl

theorem DeleteTask.over_removed? (rows : List Upload) : (DeleteTask.over rows).removed? = none := by
  cases rows <;> rfl

/-- An upload only minds the identifier it has drawn. -/
theorem UploadTask.Sound.frame {stage : UploadTask} (sound : stage.Sound env state)
    (unlisted : ∀ id, stage.uuid? = some id → id ∈ after.ids → id ∈ state.ids)
    (same : ∀ id, stage.uuid? = some id → after.node env id = state.node env id) :
    stage.Sound env after := by
  cases stage with
  | idle => trivial
  | prepared request answers row | saved request answers row =>
      obtain ⟨fresh, node, describes⟩ := sound
      exact ⟨fun member => fresh (unlisted _ rfl member), (same _ rfl).trans node, describes⟩

theorem UploadTask.Sound.unlisted {stage : UploadTask} {id : Uuid} (sound : stage.Sound env state)
    (drawn : stage.uuid? = some id) : id ∉ state.ids := by
  cases stage with
  | idle => cases drawn
  | prepared request answers row | saved request answers row =>
      cases drawn
      exact sound.1

/-- A deletion only minds that rows stay and files do not come back. -/
theorem DeleteTask.Sound.frame {stage : DeleteTask} (sound : stage.Sound env state)
    (listed : state.ids ⊆ after.ids)
    (gone : ∀ id, stage.removed? = some id → state.node env id = none ∨ id ∈ state.littered →
      after.node env id = none ∨ id ∈ after.littered) :
    stage.Sound env after :=
  ⟨fun row member => listed (sound.listed row member),
    fun id removed => gone id removed (sound.gone id removed)⟩

theorem DeleteTask.Sound.removed_listed {stage : DeleteTask} {id : Uuid}
    (sound : stage.Sound env state) (removed : stage.removed? = some id) : id ∈ state.ids := by
  cases stage with
  | idle | deleting row rest => cases removed
  | removed row rest =>
      cases removed
      exact sound.listed row List.mem_cons_self

namespace Traffic

theorem Apart.update {uploads : Nat → UploadTask} {stage : UploadTask} (apart : Apart uploads)
    (fresh : ∀ id, stage.uuid? = some id → ∀ other ≠ task, (uploads other).uuid? ≠ some id) :
    Apart (Function.update uploads task stage) := by
  intro left right id leftDrawn rightDrawn
  rw [Function.update_apply] at leftDrawn rightDrawn
  split at leftDrawn <;> split at rightDrawn
  · simp [*]
  · exact absurd rightDrawn (fresh id leftDrawn right ‹_›)
  · exact absurd leftDrawn (fresh id rightDrawn left ‹_›)
  · exact apart left right id leftDrawn rightDrawn

/-- The stage goes on under its own identifier, or without one. -/
theorem Apart.advance {uploads : Nat → UploadTask} {stage : UploadTask} (apart : Apart uploads)
    (same : ∀ id, stage.uuid? = some id → (uploads task).uuid? = some id) :
    Apart (Function.update uploads task stage) :=
  apart.update fun id drawn _ other used => other (apart _ _ id used (same id drawn))

theorem saving_update {stage : UploadTask} {id : Uuid} (saving : state.Saving id)
    (goesOn : (state.uploads task).saved? = some id → stage.saved? = some id) :
    ∃ other, (Function.update state.uploads task stage other).saved? = some id := by
  obtain ⟨other, saved⟩ := saving
  by_cases here : other = task
  · subst here
    exact ⟨other, by rw [Function.update_self]; exact goesOn saved⟩
  · exact ⟨other, by rwa [Function.update_of_ne here]⟩

theorem removing_update {stage : DeleteTask} {id : Uuid} (removing : state.Removing id)
    (goesOn : (state.deletions task).removed? = some id → stage.removed? = some id) :
    ∃ other, (Function.update state.deletions task stage other).removed? = some id := by
  obtain ⟨other, removed⟩ := removing
  by_cases here : other = task
  · subst here
    exact ⟨other, by rw [Function.update_self]; exact goesOn removed⟩
  · exact ⟨other, by rwa [Function.update_of_ne here]⟩

theorem settled_empty : Settled env empty where
  held _ member := absurd member List.not_mem_nil
  kept _ member := absurd member List.not_mem_nil
  owned _ _ found := by cases found
  uploads _ := trivial
  apart _ _ _ drawn := by cases drawn
  deletions _ := ⟨fun _ member => absurd member List.not_mem_nil, fun _ removed => by cases removed⟩

/-! ## Uploads -/

theorem sound_of_reachesSave {seen : Storage} (fresh : state.Fresh env row.id)
    (reaches : ReachesSave env settings request answers seen row) :
    (UploadTask.prepared request answers row).Sound env state := by
  refine ⟨fresh.unlisted, fresh.unheld, ?_⟩
  rw [reaches.described]
  exact ⟨rfl, rfl, rfl⟩

theorem Settled.prepare {seen : Storage} (settled : Settled env state)
    (idle : state.uploads task = .idle) (fresh : state.Fresh env row.id)
    (reaches : ReachesSave env settings request answers seen row) :
    Settled env (state.moveUpload task (.prepared request answers row)) where
  held := settled.held
  kept := settled.kept
  owned path node found := by
    obtain ⟨id, same, owner⟩ := settled.owned path node found
    refine ⟨id, same, owner.imp_right (Or.imp_left fun saving => saving_update saving fun saved => ?_)⟩
    rw [idle] at saved
    cases saved
  uploads := (Function.forall_update_iff state.uploads fun _ stage => stage.Sound env _).mpr
    ⟨(sound_of_reachesSave fresh reaches).frame (fun _ _ => id) fun _ _ => rfl,
      fun other _ => settled.uploads other⟩
  apart := settled.apart.update fun id drawn other _ => by
    cases drawn
    exact fresh.undrawn other
  deletions other := (settled.deletions other).frame (List.Subset.refl _) fun _ _ => id

/-- An upload ends where it stands.  What it saved stays as litter. -/
theorem Settled.dropUpload {littered : List Uuid} (settled : Settled env state)
    (grows : state.littered ⊆ littered)
    (left : ∀ id, (state.uploads task).saved? = some id → id ∈ littered) :
    Settled env { state.moveUpload task .idle with littered } where
  held := settled.held
  kept := settled.kept
  owned path node found := by
    obtain ⟨id, same, active | saving | member⟩ := settled.owned path node found
    · exact ⟨id, same, .inl active⟩
    · by_cases ended : (state.uploads task).saved? = some id
      · exact ⟨id, same, .inr (.inr (left id ended))⟩
      · exact ⟨id, same, .inr (.inl (saving_update saving fun saved => absurd saved ended))⟩
    · exact ⟨id, same, .inr (.inr (grows member))⟩
  uploads := (Function.forall_update_iff state.uploads fun _ stage => stage.Sound env _).mpr
    ⟨trivial, fun other _ => settled.uploads other⟩
  apart := settled.apart.advance nofun
  deletions other := (settled.deletions other).frame (List.Subset.refl _) fun _ _ =>
    Or.imp_right fun member => grows member

/-- The save writes where nobody else reads or writes. -/
theorem Settled.write {stage : UploadTask} {littered : List Uuid} (settled : Settled env state)
    (stands : state.uploads task = .prepared request answers row) (grows : state.littered ⊆ littered)
    (outcome : stage = .idle ∧ row.id ∈ littered ∨ stage = .saved request answers row ∧
      answers.save.written request.file.content = some request.file.content) :
    Settled env { (state.withFiles (saveFile answers.save request.file.content
      (uuidToPath env.root row.id) state.storage.files)).moveUpload task stage with littered } := by
  obtain ⟨unlisted, -, describes⟩ : (UploadTask.prepared request answers row).Sound env state :=
    stands ▸ settled.uploads task
  have elsewhere : ∀ id, id ≠ row.id →
      (state.withFiles (saveFile answers.save request.file.content (uuidToPath env.root row.id)
        state.storage.files)).node env id = state.node env id := fun id other =>
    (node_saveFile state answers.save request.file.content row.id id).trans (if_neg other)
  have listed : ∀ id ∈ state.ids, id ≠ row.id := fun id member same => unlisted (same ▸ member)
  have notSaved : ∀ id, (state.uploads task).saved? ≠ some id := by
    intro id saved
    rw [stands] at saved
    cases saved
  constructor
  · constructor
    · intro known member node found
      refine settled.held known member node ?_
      rwa [← elsewhere known.id (listed _ (List.mem_map_of_mem member))]
    · intro known member active missing
      refine settled.kept known member active ?_
      rwa [← elsewhere known.id (listed _ (List.mem_map_of_mem member))]
    · intro path node found
      by_cases here : path = uuidToPath env.root row.id
      · refine ⟨row.id, here, .inr ?_⟩
        rcases outcome with ⟨rfl, member⟩ | ⟨rfl, -⟩
        · exact .inr member
        · exact .inl ⟨task, congrArg UploadTask.saved? (Function.update_self task _ state.uploads)⟩
      · obtain ⟨id, same, active | saving | member⟩ :=
          settled.owned path node ((saveFile_of_ne here _ _ _).symm.trans found)
        · exact ⟨id, same, .inl active⟩
        · exact ⟨id, same, .inr (.inl (saving_update saving fun saved => absurd saved (notSaved id)))⟩
        · exact ⟨id, same, .inr (.inr (grows member))⟩
  · refine (Function.forall_update_iff state.uploads fun _ stage => stage.Sound env _).mpr ⟨?_, ?_⟩
    · rcases outcome with ⟨rfl, -⟩ | ⟨rfl, written⟩
      · trivial
      · refine ⟨unlisted, ?_, describes⟩
        refine (node_saveFile state answers.save request.file.content row.id row.id).trans ?_
        rw [if_pos rfl, written]
        rfl
    · intro other apart
      refine (settled.uploads other).frame (fun _ _ => id) fun id drawn => elsewhere id fun same => ?_
      exact apart (settled.apart other task row.id (same ▸ drawn) (by rw [stands]; rfl))
  · refine settled.apart.advance fun id drawn => ?_
    rcases outcome with ⟨rfl, -⟩ | ⟨rfl, -⟩
    · cases drawn
    · rw [stands]
      exact drawn
  · intro other
    have sound := settled.deletions other
    refine sound.frame (List.Subset.refl _) fun id removed gone => ?_
    refine gone.imp (fun none => ?_) fun member => grows member
    exact (elsewhere id (listed id (sound.removed_listed removed))).trans none

theorem isActive_insertUploadRow {table after : Uploads} {row : Upload}
    (inserted : table.insertUploadRow row = some after) (id : Uuid) :
    after.isActive id = true ↔ row.id = id ∧ row.active = true ∨ table.isActive id = true := by
  simp [Uploads.isActive, (Uploads.insertUploadRow_rows inserted).1]

/-- With its row the file of an upload has an owner. -/
theorem Settled.enter {uploads : Uploads} {now : Int} (settled : Settled env state)
    (stands : state.uploads task = .saved request answers row)
    (inserted : state.storage.uploads.insertUploadRow { row with uploadTimestamp := now } =
      some uploads) :
    Settled env ((state.withUploads uploads).moveUpload task .idle) := by
  obtain ⟨-, written, active, describes⟩ : (UploadTask.saved request answers row).Sound env state :=
    stands ▸ settled.uploads task
  have rows := (Uploads.insertUploadRow_rows inserted).1
  have ids : ((state.withUploads uploads).moveUpload task .idle).ids = row.id :: state.ids :=
    congrArg (List.map Upload.id) rows
  have known : ∀ known ∈ uploads.rows, known = { row with uploadTimestamp := now } ∨
      known ∈ state.storage.uploads.rows := fun known member => by
    rw [rows] at member
    exact List.mem_cons.mp member
  constructor
  · constructor
    · intro listed member node found
      rcases known listed member with rfl | before
      · refine ⟨_, Option.some.inj (found.symm.trans written), describes.hash, describes.size⟩
      · exact settled.held listed before node found
    · intro listed member listedActive missing
      rcases known listed member with rfl | before
      · cases written.symm.trans missing
      · exact settled.kept listed before listedActive missing
    · intro path node found
      obtain ⟨id, same, active' | saving | member⟩ := settled.owned path node found
      · exact ⟨id, same, .inl ((isActive_insertUploadRow inserted id).mpr (.inr active'))⟩
      · by_cases own : row.id = id
        · exact ⟨id, same, .inl ((isActive_insertUploadRow inserted id).mpr (.inl ⟨own, active⟩))⟩
        · refine ⟨id, same, .inr (.inl (saving_update saving fun saved => ?_))⟩
          rw [show (state.withUploads uploads).uploads task = _ from stands] at saved
          exact absurd (Option.some.inj saved) own
      · exact ⟨id, same, .inr (.inr member)⟩
  · refine (Function.forall_update_iff state.uploads fun _ stage => stage.Sound env _).mpr
      ⟨trivial, fun other apart => (settled.uploads other).frame ?_ fun _ _ => rfl⟩
    intro id drawn member
    rw [ids] at member
    rcases List.mem_cons.mp member with rfl | before
    · exact absurd (settled.apart other task row.id drawn (by rw [stands]; rfl)) apart
    · exact before
  · exact settled.apart.advance nofun
  · intro other
    refine (settled.deletions other).frame ?_ fun _ _ => id
    rw [ids]
    exact List.subset_cons_self _ _

/-! ## Deletions -/

/-- A deletion goes on to other rows, or ends.  A file it removed is accounted for. -/
theorem Settled.turnDeletion {stage : DeleteTask} {stranded : List Uuid} (settled : Settled env state)
    (grows : state.stranded ⊆ stranded)
    (left : ∀ id, (state.deletions task).removed? = some id → id ∈ stranded)
    (none : stage.removed? = none) (listed : ∀ row ∈ stage.rows, row.id ∈ state.ids) :
    Settled env { state.moveDeletion task stage with stranded } where
  held := settled.held
  kept row member active missing := by
    rcases settled.kept row member active missing with removing | before
    · by_cases turned : (state.deletions task).removed? = some row.id
      · exact .inr (left row.id turned)
      · exact .inl (removing_update removing fun removed => absurd removed turned)
    · exact .inr (grows before)
  owned := settled.owned
  uploads other := (settled.uploads other).frame (fun _ _ => id) fun _ _ => rfl
  apart := settled.apart
  deletions := by
    refine (Function.forall_update_iff state.deletions fun _ stage => stage.Sound env _).mpr
      ⟨⟨listed, fun id removed => ?_⟩,
        fun other _ => (settled.deletions other).frame (List.Subset.refl _) fun _ _ => id⟩
    cases none.symm.trans removed

/-- After its removal a file is gone, or litter. -/
theorem Settled.takeAway {rest : List Upload} {files : FileSystem} {littered : List Uuid}
    (settled : Settled env state) (stands : state.deletions task = .deleting row rest)
    (grows : state.littered ⊆ littered)
    (shrinks : ∀ path node, files path = some node → state.storage.files path = some node)
    (keeps : ∀ id, id ≠ row.id → files (uuidToPath env.root id) = state.node env id)
    (cleared : files (uuidToPath env.root row.id) = none ∨ row.id ∈ littered) :
    Settled env { (state.withFiles files).moveDeletion task (.removed row rest) with littered } := by
  have sound : (DeleteTask.deleting row rest).Sound env state := stands ▸ settled.deletions task
  have notRemoved : ∀ id, (state.deletions task).removed? ≠ some id := by
    intro id removed
    rw [stands] at removed
    cases removed
  have gone : ∀ id, state.node env id = none ∨ id ∈ state.littered ∨ id = row.id →
      files (uuidToPath env.root id) = none ∨ id ∈ littered := by
    intro id cases'
    by_cases here : id = row.id
    · exact here ▸ cleared
    · rcases cases' with none | member | same
      · exact .inl ((keeps id here).trans none)
      · exact .inr (grows member)
      · exact absurd same here
  constructor
  · constructor
    · exact fun listed member node found => settled.held listed member node (shrinks _ node found)
    · intro listed member active missing
      by_cases here : listed.id = row.id
      · exact .inl ⟨task, (congrArg DeleteTask.removed?
          (Function.update_self task _ state.deletions)).trans (congrArg some here.symm)⟩
      · rcases settled.kept listed member active ((keeps _ here).symm.trans missing) with
          removing | before
        · exact .inl (removing_update removing fun removed => absurd removed (notRemoved _))
        · exact .inr before
    · intro path node found
      obtain ⟨id, same, owner⟩ := settled.owned path node (shrinks _ node found)
      exact ⟨id, same, owner.imp_right (Or.imp_right fun member => grows member)⟩
  · intro other
    refine (settled.uploads other).frame (fun _ _ => id) fun id drawn => keeps id fun same => ?_
    exact (settled.uploads other).unlisted drawn (same ▸ sound.listed row List.mem_cons_self)
  · exact settled.apart
  · refine (Function.forall_update_iff state.deletions fun _ stage => stage.Sound env _).mpr
      ⟨⟨sound.listed, fun id removed => gone id (.inr (.inr ?_))⟩, fun other _ => ?_⟩
    · exact (Option.some.inj removed).symm
    · refine (settled.deletions other).frame (List.Subset.refl _) fun id _ before => gone id ?_
      exact before.imp_right .inl

/-- A marked row needs no file, and has none but litter. -/
theorem Settled.marked {rest : List Upload} {now : Int} (settled : Settled env state)
    (stands : state.deletions task = .removed row rest) :
    Settled env ((state.withUploads (state.storage.uploads.setDeleted row.id now)).moveDeletion task
      (.over rest)) := by
  have sound : (DeleteTask.removed row rest).Sound env state := stands ▸ settled.deletions task
  have ids : ((state.withUploads (state.storage.uploads.setDeleted row.id now)).moveDeletion task
      (.over rest)).ids = state.ids := Uploads.map_ids_markDeleted _ _ _
  constructor
  · constructor
    · intro listed member node found
      rcases Uploads.mem_setDeleted.mp member with ⟨before, -⟩ | ⟨earlier, before, -, rfl⟩
      · exact settled.held listed before node found
      · obtain ⟨content, same, describes⟩ := settled.held earlier before node found
        exact ⟨content, same, describes.hash, describes.size⟩
    · intro listed member active missing
      rcases Uploads.mem_setDeleted.mp member with ⟨before, different⟩ | ⟨earlier, -, -, rfl⟩
      · refine (settled.kept listed before active missing).imp_left fun removing => ?_
        refine removing_update removing fun removed => ?_
        have here : (state.withUploads (state.storage.uploads.setDeleted row.id now)).deletions task =
            .removed row rest := stands
        rw [here] at removed
        exact absurd (Option.some.inj removed).symm different
      · cases active
    · intro path node found
      obtain ⟨id, same, active | others⟩ := settled.owned path node found
      · by_cases here : id = row.id
        · subst here
          rcases sound.gone row.id rfl with none | littered
          · rw [same] at found
            cases none.symm.trans found
          · exact ⟨row.id, same, .inr (.inr littered)⟩
        · exact ⟨id, same, .inl (Uploads.isActive_setDeleted.mpr ⟨here, active⟩)⟩
      · exact ⟨id, same, .inr others⟩
  · exact fun other => (settled.uploads other).frame (fun _ _ member => ids ▸ member) fun _ _ => rfl
  · exact settled.apart
  · refine (Function.forall_update_iff state.deletions fun _ stage => stage.Sound env _).mpr
      ⟨⟨fun listed member => ?_, fun id removed => ?_⟩, fun other _ => ?_⟩
    · rw [DeleteTask.over_rows] at member
      rw [ids]
      exact sound.listed listed (List.mem_cons_of_mem _ member)
    · rw [DeleteTask.over_removed?] at removed
      cases removed
    · exact (settled.deletions other).frame (by rw [ids]; exact List.Subset.refl _) fun _ _ => id

/-! ## Runs -/

theorem settled_save (settled : Settled env state) (task : Nat) : Settled env (state.save env task) := by
  unfold save
  split
  · rename_i request answers row stands
    dsimp only
    split
    · rename_i succeeds
      refine settled.write stands (List.Subset.refl _) (.inr ⟨rfl, ?_⟩)
      revert succeeds
      cases answers.save <;> simp [SaveOutcome.succeeds, SaveOutcome.written]
    · exact settled.write stands (List.subset_cons_self _ _) (.inl ⟨rfl, List.mem_cons_self⟩)
  · exact settled

theorem settled_insert (settled : Settled env state) (task : Nat) (now : Int) :
    Settled env (state.insert task now) := by
  unfold insert
  split
  · rename_i request answers row stands
    split
    · rename_i uploads inserted
      split at inserted
      · cases inserted
      · exact settled.enter stands inserted
    · refine settled.dropUpload (List.subset_cons_self _ _) fun id saving => ?_
      rw [stands] at saving
      cases saving
      exact List.mem_cons_self
  · exact settled

theorem settled_select (settled : Settled env state) (idle : state.deletions task = .idle)
    (target : DeleteTarget) (now : Int) :
    Settled env (state.moveDeletion task (.over (selectedRows env target now state.storage))) := by
  refine settled.turnDeletion (List.Subset.refl _) (fun id removed => ?_)
    (DeleteTask.over_removed? _) fun row member => ?_
  · rw [idle] at removed
    cases removed
  · rw [DeleteTask.over_rows] at member
    exact List.mem_map_of_mem (List.mem_filter.mp member).1

theorem settled_remove (settled : Settled env state) (task : Nat) (fails : Bool) :
    Settled env (state.remove env task fails) := by
  unfold remove
  split
  · rename_i row rest stands
    split
    · exact settled.takeAway stands (List.subset_cons_self _ _) (fun _ _ => id) (fun _ _ => rfl)
        (.inr List.mem_cons_self)
    · refine settled.takeAway stands (List.Subset.refl _) ?_ ?_ ?_
      · intro path node found
        rw [removeFile_getD] at found
        unfold FileSystem.without at found
        split at found
        · cases found
        · exact found
      · exact fun id apart => (node_removeFile state row.id id).trans (if_neg apart)
      · exact .inl ((node_removeFile state row.id row.id).trans (if_pos rfl))
  · exact settled

theorem settled_mark (settled : Settled env state) (task : Nat) (now : Int) (fails : Bool) :
    Settled env (state.mark task now fails) := by
  unfold mark
  split
  · rename_i row rest stands
    split
    · refine settled.turnDeletion (List.subset_cons_self _ _) (fun id removed => ?_) rfl nofun
      rw [stands] at removed
      cases removed
      exact List.mem_cons_self
    · exact settled.marked stands
  · exact settled

theorem settled_abandonUpload (settled : Settled env state) (task : Nat) :
    Settled env (state.abandonUpload task) := by
  unfold abandonUpload
  cases stands : state.uploads task with
  | idle | prepared request answers row =>
      refine settled.dropUpload (List.Subset.refl _) fun id saving => ?_
      rw [stands] at saving
      cases saving
  | saved request answers row =>
      refine settled.dropUpload (List.subset_cons_self _ _) fun id saving => ?_
      rw [stands] at saving
      cases saving
      exact List.mem_cons_self

theorem settled_abandonDeletion (settled : Settled env state) (task : Nat) :
    Settled env (state.abandonDeletion task) := by
  unfold abandonDeletion
  cases stands : state.deletions task with
  | idle | deleting row rest =>
      refine settled.turnDeletion (List.Subset.refl _) (fun id removed => ?_) rfl nofun
      rw [stands] at removed
      cases removed
  | removed row rest =>
      refine settled.turnDeletion (List.subset_cons_self _ _) (fun id removed => ?_) rfl nofun
      rw [stands] at removed
      cases removed
      exact List.mem_cons_self

theorem settled_next {event : TrafficEvent} (settled : Settled env state)
    (enabled : (trafficSystem env settings).enabled state event) :
    Settled env ((trafficSystem env settings).next state event) := by
  cases event with
  | prepare task request answers row =>
      obtain ⟨idle, fresh, seen, reaches⟩ := enabled
      exact settled.prepare idle fresh reaches
  | save task => exact settled_save settled task
  | insert task now => exact settled_insert settled task now
  | select task target now => exact settled_select settled enabled.1 target now
  | remove task fails => exact settled_remove settled task fails
  | mark task now fails => exact settled_mark settled task now fails
  | abandonUpload task => exact settled_abandonUpload settled task
  | abandonDeletion task => exact settled_abandonDeletion settled task

theorem settled_run {events : List TrafficEvent}
    (run : (trafficSystem env settings).Run empty events state) : Settled env state :=
  run.invariant settled_empty fun _ _ settled enabled => settled_next settled enabled

/-- Nothing fails or is given up between two steps. -/
def Smooth (state : Traffic) : TrafficEvent → Prop
  | .save task => ∀ request answers row, state.uploads task = .prepared request answers row →
      answers.save.succeeds = true
  | .insert task now => ∀ request answers row, state.uploads task = .saved request answers row →
      answers.insertFails = false ∧
        (state.storage.uploads.insertUploadRow { row with uploadTimestamp := now }).isSome = true
  | .remove _ fails | .mark _ _ fails => fails = false
  | .abandonUpload task => (state.uploads task).saved? = none
  | .abandonDeletion task => (state.deletions task).removed? = none
  | _ => True

def Spotless (state : Traffic) : Prop := state.stranded = [] ∧ state.littered = []

theorem spotless_next (settings : Settings) {event : TrafficEvent} (spotless : state.Spotless)
    (smooth : state.Smooth event) :
    ((trafficSystem env settings).next state event).Spotless := by
  cases event with
  | prepare task request answers row => exact spotless
  | save task =>
      simp only [trafficSystem, save]
      split
      · rename_i request answers row stands
        rw [if_pos (smooth request answers row stands)]
        exact spotless
      · exact spotless
  | insert task now =>
      simp only [trafficSystem, insert]
      split
      · rename_i request answers row stands
        obtain ⟨works, accepted⟩ := smooth request answers row stands
        obtain ⟨uploads, inserted⟩ := Option.isSome_iff_exists.mp accepted
        simp only [works, inserted, Bool.false_eq_true, if_false]
        exact spotless
      · exact spotless
  | select task target now => exact spotless
  | remove task fails =>
      cases (smooth : fails = false)
      simp only [trafficSystem, remove]
      split <;> exact spotless
  | mark task now fails =>
      cases (smooth : fails = false)
      simp only [trafficSystem, mark]
      split <;> exact spotless
  | abandonUpload task =>
      simp only [trafficSystem, abandonUpload]
      split
      · rename_i stands
        simp [Smooth, stands, UploadTask.saved?] at smooth
      · exact spotless
  | abandonDeletion task =>
      simp only [trafficSystem, abandonDeletion]
      split
      · rename_i stands
        simp [Smooth, stands, DeleteTask.removed?] at smooth
      · exact spotless

end Traffic

/-- However uploads and deletions are interleaved and wherever they fail or stop, a
row's file is its own; an active row has lost its file only to a deletion that is between
two steps or has ended there; and a file that no active row accounts for is about to be,
or is litter.  Each of them on its own does what it does as a whole. -/
theorem traffic_consistent {env : StoreEnv} {settings : Settings} {events : List TrafficEvent}
    {state : Traffic} (run : (trafficSystem env settings).Run .empty events state) :
    state.Consistent env ∧ state.StepsAddUp env settings :=
  ⟨(Traffic.settled_run run).toConsistent, Traffic.stepsAddUp state⟩

def landedRow : Upload :=
  newRow plainEnv (uploadBy "curl".toList) (cleanAnswers 0) "abc.txt".toList 15552000

/-- One upload from its first step to its last. -/
def landingEvents : List TrafficEvent :=
  [.insert 0 0, .save 0, .prepare 0 (uploadBy "curl".toList) (cleanAnswers 0) landedRow]

def landedState : Traffic := (trafficSystem plainEnv defaultSettings).after .empty landingEvents

theorem landing_enabled :
    (trafficSystem plainEnv defaultSettings).enabled .empty
      (.prepare 0 (uploadBy "curl".toList) (cleanAnswers 0) landedRow) :=
  ⟨rfl, ⟨List.not_mem_nil, rfl, nofun⟩, _, uploadBy_reaches _⟩

theorem landing_run :
    (trafficSystem plainEnv defaultSettings).Run .empty landingEvents landedState :=
  .of_admits ⟨⟨⟨trivial, landing_enabled⟩, trivial⟩, trivial⟩

/-- A deletion has removed the file and not marked the row yet. -/
def halfDeletedEvents : List TrafficEvent :=
  [.remove 0 false, .select 0 (.bySlug "abc.txt".toList) 1]

theorem halfDeleted_run :
    (trafficSystem plainEnv defaultSettings).Run landedState halfDeletedEvents
      ((trafficSystem plainEnv defaultSettings).after landedState halfDeletedEvents) :=
  .of_admits ⟨⟨trivial, rfl, rfl⟩, trivial⟩

theorem halfDeleted_consistent :
    ((trafficSystem plainEnv defaultSettings).after landedState halfDeletedEvents).Consistent
        plainEnv ∧
      landedState.storage = (processFile plainEnv defaultSettings (uploadBy "curl".toList)
        (cleanAnswers 0) .empty).2 :=
  ⟨(traffic_consistent (landing_run.append halfDeleted_run)).1,
    (traffic_consistent .start).2.upload 0 _ _ _ (uploadBy_reaches _)⟩

/-- What a download opens, any time after it found its row, is the file of that row. -/
theorem download_intact {env : StoreEnv} {settings : Settings} {older newer : List TrafficEvent}
    {found opened : Traffic} (run : (trafficSystem env settings).Run .empty older found)
    (later : (trafficSystem env settings).Run found newer opened) {slug : List Char} {row : Upload}
    (answered : found.storage.uploads.getUploadBySlug env.collation slug = some row)
    {content : List UInt8}
    (served : opened.storage.files.read env.hops (uuidToPath env.root row.id) = some content) :
    Describes env row content := by
  have settled := Traffic.settled_run (run.append later)
  obtain ⟨now, member, id, hash, size⟩ :=
    Traffic.persists_run later row (List.mem_of_find?_eq_some answered)
  cases held : opened.node env row.id with
  | none =>
      rw [FileSystem.read_of_absent held] at served
      cases served
  | some node =>
      obtain ⟨content', rfl, describes⟩ := settled.held now member node (by rw [id]; exact held)
      rw [FileSystem.read_file held, Option.some.injEq] at served
      subst served
      exact ⟨hash ▸ describes.hash, size ▸ describes.size⟩

/-- The file is opened while a deletion has selected its row. -/
theorem landed_intact : Describes plainEnv landedRow [] :=
  @download_intact plainEnv defaultSettings landingEvents [.select 0 .expired 15552000] landedState
    _ landing_run (.step .start ⟨rfl, rfl⟩) "abc.txt".toList landedRow (by decide) [] (by decide)

/-- After a run in which nothing failed, as soon as no upload and no deletion is under
way, the files are exactly those of the active rows. -/
theorem quiet_exact {env : StoreEnv} {settings : Settings} {events : List TrafficEvent}
    {state : Traffic}
    (run : ((trafficSystem env settings).restrict Traffic.Smooth).Run .empty events state)
    (quiet : ∀ task, state.uploads task = .idle ∧ state.deletions task = .idle) :
    (∀ row ∈ state.storage.uploads.rows, row.active = true → ∃ content,
      state.storage.files (uuidToPath env.root row.id) = some (.file content) ∧
        Describes env row content) ∧
    ∀ path, (state.storage.files path).isSome = true →
      ∃ row ∈ state.storage.uploads.rows, row.active = true ∧ path = uuidToPath env.root row.id := by
  have settled := Traffic.settled_run run.of_restrict
  have spotless : state.Spotless := run.invariant ⟨rfl, rfl⟩ fun _ _ before enabled =>
    Traffic.spotless_next settings before enabled.2
  constructor
  · intro row member active
    cases held : state.node env row.id with
    | none =>
        rcases settled.kept row member active held with ⟨task, removing⟩ | stranded
        · rw [(quiet task).2] at removing
          cases removing
        · rw [spotless.1] at stranded
          cases stranded
    | some node =>
        obtain ⟨content, rfl, describes⟩ := settled.held row member node held
        exact ⟨content, held, describes⟩
  · intro path found
    obtain ⟨node, held⟩ := Option.isSome_iff_exists.mp found
    obtain ⟨id, same, active | ⟨task, saving⟩ | littered⟩ := settled.owned path node held
    · obtain ⟨row, member, rfl, isActive⟩ := Uploads.isActive_iff.mp active
      exact ⟨row, member, isActive, same⟩
    · rw [(quiet task).1] at saving
      cases saving
    · rw [spotless.2] at littered
      cases littered

def crossingAnswers : Answers :=
  { cleanAnswers 0 with uuid := secondUuid, draws := [some "def".toList] }

def crossingRow : Upload :=
  newRow plainEnv (uploadBy "curl".toList) crossingAnswers "def.txt".toList 15552000

theorem crossing_reaches : ReachesSave plainEnv defaultSettings (uploadBy "curl".toList)
    crossingAnswers .empty crossingRow where
  passes := rfl
  unique := rfl
  named := rfl
  kept := emptyFile_expiry
  housed := rfl
  described := rfl

/-- The first upload is deleted while a second one comes in. -/
def crossingEvents : List TrafficEvent :=
  [.insert 1 2, .mark 0 2 false, .save 1, .remove 0 false,
    .prepare 1 (uploadBy "curl".toList) crossingAnswers crossingRow,
    .select 0 (.bySlug "abc.txt".toList) 1] ++ landingEvents

def crossedState : Traffic := (trafficSystem plainEnv defaultSettings).after .empty crossingEvents

theorem crossing_enabled :
    (trafficSystem plainEnv defaultSettings).enabled
      ((trafficSystem plainEnv defaultSettings).next landedState
        (.select 0 (.bySlug "abc.txt".toList) 1))
      (.prepare 1 (uploadBy "curl".toList) crossingAnswers crossingRow) :=
  ⟨rfl, ⟨by decide, by decide, fun task => by cases task <;> nofun⟩, _, crossing_reaches⟩

theorem crossed_quiet :
    crossedState.storage.uploads.isActive secondUuid = true ∧
      (∀ row ∈ crossedState.storage.uploads.rows, row.active = true → ∃ content,
        crossedState.storage.files (uuidToPath plainEnv.root row.id) = some (.file content) ∧
          Describes plainEnv row content) ∧
      ∀ path, (crossedState.storage.files path).isSome = true →
        ∃ row ∈ crossedState.storage.uploads.rows, row.active = true ∧
          path = uuidToPath plainEnv.root row.id := by
  refine ⟨by decide, @quiet_exact plainEnv defaultSettings crossingEvents _ ?_ ?_⟩
  · refine .of_admits ⟨⟨⟨⟨⟨⟨⟨⟨⟨trivial, landing_enabled, trivial⟩, trivial, ?_⟩, trivial, ?_⟩,
      ⟨rfl, rfl⟩, trivial⟩, crossing_enabled, trivial⟩, trivial, rfl⟩, trivial, ?_⟩, trivial, rfl⟩,
      trivial, ?_⟩
    · rintro request answers row stands
      cases stands
      rfl
    · rintro request answers row stands
      cases stands
      exact ⟨rfl, rfl⟩
    · rintro request answers row stands
      cases stands
      rfl
    · rintro request answers row stands
      cases stands
      exact ⟨rfl, by decide⟩
  · intro task
    match task with
    | 0 => exact ⟨rfl, rfl⟩
    | 1 => exact ⟨rfl, rfl⟩
    | _ + 2 => exact ⟨rfl, rfl⟩

end Filehost.Upload
