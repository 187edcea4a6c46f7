import Filehost.Data.Transition
import Filehost.Store.Reading
import Filehost.Upload.Rejection

namespace Filehost.Upload

open Filehost.Data Filehost.Database Filehost.Store

/-! # Uploads and deletions step by step

Any number of uploads and deletions run at once, each in the steps that others may
come between.  An upload saves its file before it inserts its row; a deletion removes
a file before it marks the row. -/

/-- Where an upload stands, with the row it has settled on. -/
inductive UploadTask where
  | idle
  | prepared (request : FileRequest) (answers : Answers) (row : Upload)
  | saved (request : FileRequest) (answers : Answers) (row : Upload)

/-- Where a deletion stands, with the rows it still has to come to. -/
inductive DeleteTask where
  | idle
  | deleting (row : Upload) (rest : List Upload)
  | removed (row : Upload) (rest : List Upload)

/-- `stranded` remembers the uploads whose file was removed by a deletion that ended
before it marked the row, `littered` those whose file a failure may have left behind. -/
structure Traffic where
  storage : Storage
  uploads : Nat → UploadTask
  deletions : Nat → DeleteTask
  stranded : List Uuid
  littered : List Uuid

inductive TrafficEvent where
  | prepare (task : Nat) (request : FileRequest) (answers : Answers) (row : Upload)
  | save (task : Nat)
  | insert (task : Nat) (now : Int)
  | select (task : Nat) (target : DeleteTarget) (now : Int)
  | remove (task : Nat) (fails : Bool)
  | mark (task : Nat) (now : Int) (fails : Bool)
  | abandonUpload (task : Nat)
  | abandonDeletion (task : Nat)

def DeleteTask.over : List Upload → DeleteTask
  | [] => .idle
  | row :: rest => .deleting row rest

/-- The identifier an upload has drawn. -/
def UploadTask.uuid? : UploadTask → Option Uuid
  | .idle => none
  | .prepared _ _ row | .saved _ _ row => some row.id

def UploadTask.saved? : UploadTask → Option Uuid
  | .saved _ _ row => some row.id
  | _ => none

def DeleteTask.removed? : DeleteTask → Option Uuid
  | .removed row _ => some row.id
  | _ => none

def DeleteTask.rows : DeleteTask → List Upload
  | .idle => []
  | .deleting row rest | .removed row rest => row :: rest

namespace Traffic

def empty : Traffic := ⟨.empty, fun _ => .idle, fun _ => .idle, [], []⟩

def node (env : StoreEnv) (state : Traffic) (id : Uuid) : Option Node :=
  state.storage.files (uuidToPath env.root id)

/-- A drawn identifier is not in use. -/
structure Fresh (env : StoreEnv) (state : Traffic) (id : Uuid) : Prop where
  unlisted : id ∉ state.storage.uploads.rows.map Upload.id
  unheld : state.node env id = none
  undrawn : ∀ task, (state.uploads task).uuid? ≠ some id

def moveUpload (state : Traffic) (task : Nat) (stage : UploadTask) : Traffic :=
  { state with uploads := Function.update state.uploads task stage }

def moveDeletion (state : Traffic) (task : Nat) (stage : DeleteTask) : Traffic :=
  { state with deletions := Function.update state.deletions task stage }

def litter (state : Traffic) (id : Uuid) : Traffic :=
  { state with littered := id :: state.littered }

def strand (state : Traffic) (id : Uuid) : Traffic :=
  { state with stranded := id :: state.stranded }

def withFiles (state : Traffic) (files : FileSystem) : Traffic :=
  { state with storage.files := files }

def withUploads (state : Traffic) (uploads : Uploads) : Traffic :=
  { state with storage.uploads := uploads }

def save (env : StoreEnv) (state : Traffic) (task : Nat) : Traffic :=
  match state.uploads task with
  | .prepared request answers row =>
      let after := state.withFiles (saveFile answers.save request.file.content
        (uuidToPath env.root row.id) state.storage.files)
      if answers.save.succeeds then after.moveUpload task (.saved request answers row)
      else (after.moveUpload task .idle).litter row.id
  | _ => state

def insert (state : Traffic) (task : Nat) (now : Int) : Traffic :=
  match state.uploads task with
  | .saved _ answers row =>
      match if answers.insertFails then none
        else state.storage.uploads.insertUploadRow { row with uploadTimestamp := now } with
      | some uploads => (state.withUploads uploads).moveUpload task .idle
      | none => (state.moveUpload task .idle).litter row.id
  | _ => state

/-- A file that cannot be removed is only logged. -/
def remove (env : StoreEnv) (state : Traffic) (task : Nat) (fails : Bool) : Traffic :=
  match state.deletions task with
  | .deleting row rest =>
      if fails then (state.moveDeletion task (.removed row rest)).litter row.id
      else (state.withFiles ((state.storage.files.removeFile (uuidToPath env.root row.id)).getD
        state.storage.files)).moveDeletion task (.removed row rest)
  | _ => state

/-- An error of the database ends the deletion. -/
def mark (state : Traffic) (task : Nat) (now : Int) (fails : Bool) : Traffic :=
  match state.deletions task with
  | .removed row rest =>
      if fails then (state.moveDeletion task .idle).strand row.id
      else (state.withUploads (state.storage.uploads.setDeleted row.id now)).moveDeletion task
        (.over rest)
  | _ => state

def abandonUpload (state : Traffic) (task : Nat) : Traffic :=
  match state.uploads task with
  | .saved _ _ row => (state.moveUpload task .idle).litter row.id
  | _ => state.moveUpload task .idle

def abandonDeletion (state : Traffic) (task : Nat) : Traffic :=
  match state.deletions task with
  | .removed row _ => (state.moveDeletion task .idle).strand row.id
  | _ => state.moveDeletion task .idle

end Traffic

/-- An upload is prepared from whatever its lookups found, at their time. -/
def trafficSystem (env : StoreEnv) (settings : Settings) : System Traffic TrafficEvent where
  enabled state
    | .prepare task request answers row => state.uploads task = .idle ∧ state.Fresh env row.id ∧
        ∃ seen, ReachesSave env settings request answers seen row
    | .select task target _ => state.deletions task = .idle ∧ target.wellFormed = true
    | _ => True
  next state
    | .prepare task request answers row => state.moveUpload task (.prepared request answers row)
    | .save task => state.save env task
    | .insert task now => state.insert task now
    | .select task target now =>
        state.moveDeletion task (.over (selectedRows env target now state.storage))
    | .remove task fails => state.remove env task fails
    | .mark task now fails => state.mark task now fails
    | .abandonUpload task => state.abandonUpload task
    | .abandonDeletion task => state.abandonDeletion task

namespace Traffic

variable {env : StoreEnv} {settings : Settings} {state : Traffic} {request : FileRequest}
  {answers : Answers} {row : Upload} {task : Nat}

/-! ## The files at the paths of identifiers -/

theorem saveFile_of_ne {path dest : Path} (apart : path ≠ dest) (outcome : SaveOutcome)
    (content : List UInt8) (files : FileSystem) :
    saveFile outcome content dest files path = files path := by
  unfold saveFile
  cases outcome.written content with
  | none => rfl
  | some left => exact Function.update_of_ne apart _ _

theorem node_saveFile (state : Traffic) (outcome : SaveOutcome) (content : List UInt8)
    (id other : Uuid) :
    (state.withFiles (saveFile outcome content (uuidToPath env.root id)
      state.storage.files)).node env other =
      if other = id then ((outcome.written content).map Node.file).or (state.node env other)
      else state.node env other := by
  simp only [node, withFiles, saveFile]
  cases written : outcome.written content with
  | none => simp
  | some left =>
      by_cases same : other = id
      · simp [same]
      · have apart : uuidToPath env.root other ≠ uuidToPath env.root id := mt uuidToPath_inj.mp same
        simp [same, Function.update_of_ne apart]

theorem node_removeFile (state : Traffic) (id other : Uuid) :
    (state.withFiles ((state.storage.files.removeFile (uuidToPath env.root id)).getD
      state.storage.files)).node env other =
      if other = id then none else state.node env other := by
  simp only [node, withFiles, removeFile_getD, FileSystem.without, List.mem_singleton, uuidToPath_inj]

/-! ## Steps that nothing comes between -/

/-- What a deletion does with its rows, newest event first. -/
def deletionEvents (task : Nat) (faults : DeleteFaults) (now : Int) : List Upload → List TrafficEvent
  | [] => []
  | row :: rest =>
      (if faults.statement row.id then [] else deletionEvents task faults now rest) ++
        [.mark task now (faults.statement row.id), .remove task (faults.removal row.id)]

/-- An upload on its own is `process_file`. -/
theorem upload_alone (task : Nat)
    (reaches : ReachesSave env settings request answers state.storage row) :
    ((trafficSystem env settings).after state [.insert task answers.now, .save task,
      .prepare task request answers row]).storage =
        (processFile env settings request answers state.storage).2 := by
  rw [processFile_of_reachesSave reaches]
  have drawn : row.id = answers.uuid := by rw [reaches.described]; rfl
  have timed : { row with uploadTimestamp := answers.now } = row := by rw [reaches.described]; rfl
  simp only [System.after, trafficSystem, saveAndInsert, ← drawn]
  cases saved : answers.save.succeeds with
  | false => simp [save, insert, moveUpload, withFiles, litter, saved]
  | true =>
      cases inserted : if answers.insertFails then none
          else state.storage.uploads.insertUploadRow row with
      | none => simp [save, insert, moveUpload, withFiles, litter, saved, timed, inserted]
      | some uploads =>
          simp [save, insert, moveUpload, withFiles, withUploads, saved, timed, inserted]

theorem after_row (env : StoreEnv) (settings : Settings) {rest : List Upload} (faults : DeleteFaults)
    (now : Int) (stands : state.deletions task = .deleting row rest) :
    let after := (trafficSystem env settings).after state
      [.mark task now (faults.statement row.id), .remove task (faults.removal row.id)]
    after.storage = (deleteOne env faults now state.storage row).1 ∧
      (faults.statement row.id = false → after.deletions task = .over rest) := by
  simp only [System.after, trafficSystem, remove, stands, deleteOne]
  cases faults.removal row.id <;> cases faults.statement row.id <;>
    simp [mark, moveDeletion, withFiles, withUploads, litter, strand]

theorem after_deletionEvents (faults : DeleteFaults) (now : Int) (rows : List Upload)
    (stands : state.deletions task = .over rows) :
    ((trafficSystem env settings).after state (deletionEvents task faults now rows)).storage =
      (deleteRows env faults now rows state.storage).1 := by
  induction rows generalizing state with
  | nil => rfl
  | cons row rest ih =>
      obtain ⟨first, goesOn⟩ := after_row env settings faults now stands
      rw [deletionEvents, System.after_append, deleteRows]
      cases failed : faults.statement row.id with
      | true =>
          have stops : (deleteOne env faults now state.storage row).2 = false := by
            simp [deleteOne, failed]
          simp only [if_true, System.after]
          rw [failed] at first
          split
          · rename_i after result
            rw [result] at stops
            cases stops
          · rename_i after result
            rw [result] at first
            exact first
      | false =>
          have continues : (deleteOne env faults now state.storage row).2 = true := by
            simp [deleteOne, failed]
          rw [failed] at first goesOn
          simp only [Bool.false_eq_true, if_false]
          rw [ih (goesOn rfl), first]
          split
          · rename_i after result
            rw [result]
          · rename_i after result
            rw [result] at continues
            cases continues

/-- A deletion on its own is `delete_matching`. -/
theorem deletion_alone (task : Nat) (faults : DeleteFaults) {target : DeleteTarget} (now : Int)
    (wellFormed : target.wellFormed = true) (selects : faults.select = false) (state : Traffic) :
    ((trafficSystem env settings).after state
      (deletionEvents task faults now (selectedRows env target now state.storage) ++
        [.select task target now])).storage =
      (deleteMatching env faults target now state.storage).1 := by
  rw [System.after_append, deleteMatching_fst, wellFormed, selects]
  apply after_deletionEvents
  exact Function.update_self _ _ _

/-- Where nothing comes between their steps, an upload and a deletion leave the store as
`process_file` and `delete_matching` do. -/
structure StepsAddUp (env : StoreEnv) (settings : Settings) (state : Traffic) : Prop where
  upload : ∀ task request answers row,
    ReachesSave env settings request answers state.storage row →
      ((trafficSystem env settings).after state [.insert task answers.now, .save task,
        .prepare task request answers row]).storage =
          (processFile env settings request answers state.storage).2
  deletion : ∀ task target now faults, DeleteTarget.wellFormed target = true →
    faults.select = false →
      ((trafficSystem env settings).after state
        (deletionEvents task faults now (selectedRows env target now state.storage) ++
          [.select task target now])).storage =
        (deleteMatching env faults target now state.storage).1

theorem stepsAddUp (state : Traffic) : state.StepsAddUp env settings where
  upload task _ _ _ reaches := upload_alone task reaches
  deletion task _ now faults wellFormed selects :=
    deletion_alone task faults now wellFormed selects state

/-! ## Runs -/

/-- Rows stay, and stay those of their files. -/
def Persists (before after : Uploads) : Prop :=
  ∀ row ∈ before.rows, ∃ later ∈ after.rows, later.id = row.id ∧ later.hash = row.hash ∧
    later.fileSize = row.fileSize

theorem persists_next (state : Traffic) (event : TrafficEvent) :
    Persists state.storage.uploads ((trafficSystem env settings).next state event).storage.uploads := by
  have same : Persists state.storage.uploads state.storage.uploads :=
    fun row member => ⟨row, member, rfl, rfl, rfl⟩
  cases event with
  | prepare task request answers row => exact same
  | save task =>
      simp only [trafficSystem, save]
      split
      · split <;> exact same
      · exact same
  | insert task now =>
      simp only [trafficSystem, insert]
      split
      · split
        · rename_i uploads inserted
          split at inserted
          · cases inserted
          · intro row member
            refine ⟨row, ?_, rfl, rfl, rfl⟩
            change row ∈ uploads.rows
            rw [(Uploads.insertUploadRow_rows inserted).1]
            exact List.mem_cons_of_mem _ member
        · exact same
      · exact same
  | select task target now => exact same
  | remove task fails =>
      simp only [trafficSystem, remove]
      split
      · split <;> exact same
      · exact same
  | mark task now fails =>
      simp only [trafficSystem, mark]
      split
      · split
        · exact same
        · rename_i marked _ _ _
          intro row member
          by_cases here : row.id = marked.id
          · exact ⟨_, Uploads.mem_setDeleted.mpr (.inr ⟨row, member, here, rfl⟩), rfl, rfl, rfl⟩
          · exact ⟨row, Uploads.mem_setDeleted.mpr (.inl ⟨member, here⟩), rfl, rfl, rfl⟩
      · exact same
  | abandonUpload task =>
      simp only [trafficSystem, abandonUpload]
      split <;> exact same
  | abandonDeletion task =>
      simp only [trafficSystem, abandonDeletion]
      split <;> exact same

theorem persists_run {events : List TrafficEvent} {after : Traffic}
    (run : (trafficSystem env settings).Run state events after) :
    Persists state.storage.uploads after.storage.uploads := by
  induction run with
  | start => exact fun row member => ⟨row, member, rfl, rfl, rfl⟩
  | step _ _ ih =>
      intro row member
      obtain ⟨middle, middleMember, id, hash, size⟩ := ih row member
      obtain ⟨later, laterMember, id', hash', size'⟩ := persists_next _ _ middle middleMember
      exact ⟨later, laterMember, id'.trans id, hash'.trans hash, size'.trans size⟩

end Traffic

end Filehost.Upload
