import Filehost.Cache.SharedCells

namespace Filehost.Cache

open Filehost.Data

/-! # Checks after a change read the database after it

Every entry of a cell was read no earlier than any change that has cleared the
cell was committed.  A task that has read the database but not yet stored what
it read, or not yet cleaned up, holds the write lock, which a clearing task needs too. -/

variable {Kind : Type} {Key Value : Kind → Type} {Tables Change : Type}
variable {backing : Backing Kind Key Value Tables Change}

def Task.ClearedAt (backing : Backing Kind Key Value Tables Change)
    (task : Task Key Value Change) (kind : Kind) (committedAt : Nat) : Prop :=
  match task with
  | .handler change (.cleared tick) | .handler change (.responded tick _) =>
      backing.invalidates change = kind ∧ tick = committedAt
  | _ => False

def Task.RespondedAt (backing : Backing Kind Key Value Tables Change)
    (task : Task Key Value Change) (kind : Kind) (committedAt respondedAt : Nat) : Prop :=
  match task with
  | .handler change (.responded tick response) =>
      backing.invalidates change = kind ∧ tick = committedAt ∧ response = respondedAt
  | _ => False

theorem Task.RespondedAt.clearedAt {task : Task Key Value Change} {kind : Kind}
    {committedAt respondedAt : Nat} (responded : task.RespondedAt backing kind committedAt respondedAt) :
    task.ClearedAt backing kind committedAt := by
  cases task with
  | handler change stage =>
      cases stage with
      | responded => exact ⟨responded.1, responded.2.1⟩
      | _ => exact responded.elim
  | _ => exact responded.elim

namespace CacheState

/-- The value was read no earlier than any change that has cleared the cell
was committed. -/
def PastClears (backing : Backing Kind Key Value Tables Change)
    (state : CacheState Key Value Tables Change) (kind : Kind) (readAt : Nat) : Prop :=
  ∀ task committedAt, (state.tasks task).ClearedAt backing kind committedAt → committedAt ≤ readAt

def Recorded (backing : Backing Kind Key Value Tables Change)
    (state : CacheState Key Value Tables Change) (kind : Kind) (key : Key kind)
    (answer : Fetched (Value kind)) : Prop :=
  ∃ tables now, ⟨kind, key, answer.readAt, tables, now⟩ ∈ state.reads ∧
    answer.value = backing.fetch kind key tables now

def Backed (backing : Backing Kind Key Value Tables Change)
    (state : CacheState Key Value Tables Change) (kind : Kind) (key : Key kind)
    (answer : Fetched (Value kind)) : Prop :=
  state.Recorded backing kind key answer ∧ state.PastClears backing kind answer.readAt

def holdsWriter (state : CacheState Key Value Tables Change) (task : Nat) (kind : Kind) : Prop :=
  (state.cell kind).writer = some task

/-- What is known of a task that stands at a stage. -/
def TaskOk (backing : Backing Kind Key Value Tables Change)
    (state : CacheState Key Value Tables Change) (task : Nat) : Task Key Value Change → Prop
  | .check _ _ began .started | .check _ _ began .reading | .check _ _ began .missed =>
      began < state.tick
  | .check kind _ began .writing | .check kind _ began (.fetching _) =>
      began < state.tick ∧ state.holdsWriter task kind
  | .check kind key began (.fetched answer) | .check kind key began (.retaining answer) =>
      began < state.tick ∧ state.holdsWriter task kind ∧ state.Backed backing kind key answer
  | .check kind key began (.answered answer) =>
      began < state.tick ∧ state.Recorded backing kind key answer ∧
        ∀ other committedAt respondedAt,
          (state.tasks other).RespondedAt backing kind committedAt respondedAt →
            respondedAt < began → committedAt ≤ answer.readAt
  | .handler _ (.committed committedAt) | .handler _ (.cleared committedAt)
  | .handler _ (.responded committedAt _) => committedAt < state.tick
  | .handler change (.clearing committedAt) =>
      committedAt < state.tick ∧ state.holdsWriter task (backing.invalidates change)
  | _ => True

structure Coherent (backing : Backing Kind Key Value Tables Change)
    (state : CacheState Key Value Tables Change) : Prop where
  tasks : ∀ task, state.TaskOk backing task (state.tasks task)
  entries : ∀ kind key entry, (state.cell kind).entries key = some entry →
    state.Backed backing kind key entry.value

theorem Coherent.pastClears_tick {state : CacheState Key Value Tables Change}
    (coherent : state.Coherent backing) (kind : Kind) :
    state.PastClears backing kind state.tick := by
  intro task committedAt cleared
  have ok := coherent.tasks task
  cases stands : state.tasks task with
  | handler change stage =>
      rw [stands] at ok cleared
      cases stage with
      | cleared => exact cleared.2 ▸ Nat.le_of_lt ok
      | responded => exact cleared.2 ▸ Nat.le_of_lt ok
      | _ => exact cleared.elim
  | _ =>
      rw [stands] at cleared
      exact cleared.elim

/-- What one step can do: `actor` alone moves, it takes no guard from another
task, it clears a cell only under the write lock and leaves it empty, and what
it stores is what it read. -/
structure StepBy (backing : Backing Kind Key Value Tables Change)
    (before after : CacheState Key Value Tables Change) (actor : Option Nat) : Prop where
  tick : after.tick = before.tick + 1
  reads : before.reads ⊆ after.reads
  tasks : ∀ task, actor ≠ some task → after.tasks task = before.tasks task
  writers : ∀ task kind, actor ≠ some task → before.holdsWriter task kind →
    after.holdsWriter task kind
  clears : ∀ task kind committedAt, (after.tasks task).ClearedAt backing kind committedAt →
    (before.tasks task).ClearedAt backing kind committedAt ∨
      (before.cell kind).writer = actor ∧ (after.cell kind).entries = .empty
  responds : ∀ task kind committedAt respondedAt,
    (after.tasks task).RespondedAt backing kind committedAt respondedAt →
      (before.tasks task).RespondedAt backing kind committedAt respondedAt ∨
        before.tick ≤ respondedAt
  stores : ∀ kind key entry, (after.cell kind).entries key = some entry →
    (before.cell kind).entries key = some entry ∨
      ∃ task began, actor = some task ∧
        before.tasks task = .check kind key began (.fetched entry.value)

variable {before after : CacheState Key Value Tables Change} {actor : Option Nat}

theorem StepBy.recorded (step : StepBy backing before after actor) {kind : Kind} {key : Key kind}
    {answer : Fetched (Value kind)} (recorded : before.Recorded backing kind key answer) :
    after.Recorded backing kind key answer := by
  obtain ⟨tables, now, held, same⟩ := recorded
  exact ⟨tables, now, step.reads held, same⟩

theorem StepBy.pastClears (step : StepBy backing before after actor) {kind : Kind} {readAt : Nat}
    (past : before.PastClears backing kind readAt)
    (kept : (before.cell kind).writer ≠ actor ∨ (after.cell kind).entries ≠ .empty) :
    after.PastClears backing kind readAt := by
  intro task committedAt cleared
  rcases step.clears task kind committedAt cleared with already | ⟨owner, emptied⟩
  · exact past task committedAt already
  · exact (kept.elim (· owner) (· emptied)).elim

theorem StepBy.backed (step : StepBy backing before after actor) {kind : Kind} {key : Key kind}
    {answer : Fetched (Value kind)} (backed : before.Backed backing kind key answer)
    (kept : (before.cell kind).writer ≠ actor ∨ (after.cell kind).entries ≠ .empty) :
    after.Backed backing kind key answer :=
  ⟨step.recorded backed.1, step.pastClears backed.2 kept⟩

theorem StepBy.taskOk_other (step : StepBy backing before after actor) {task : Nat}
    (other : actor ≠ some task) {stage : Task Key Value Change}
    (ok : before.TaskOk backing task stage) : after.TaskOk backing task stage := by
  have later := step.tick
  have keeps : ∀ kind, before.holdsWriter task kind → after.holdsWriter task kind :=
    fun kind => step.writers task kind other
  have locked : ∀ {kind}, before.holdsWriter task kind → (before.cell kind).writer ≠ actor :=
    fun held owned => other (owned.symm.trans held)
  cases stage with
  | idle => trivial
  | abandoned => trivial
  | check kind key began stage =>
      cases stage with
      | started => exact ok.trans (by omega)
      | reading => exact ok.trans (by omega)
      | missed => exact ok.trans (by omega)
      | writing => exact ⟨ok.1.trans (by omega), keeps _ ok.2⟩
      | fetching => exact ⟨ok.1.trans (by omega), keeps _ ok.2⟩
      | fetched answer =>
          obtain ⟨began_lt, held, backed⟩ := ok
          exact ⟨began_lt.trans (by omega), keeps _ held, step.backed backed (.inl (locked held))⟩
      | retaining answer =>
          obtain ⟨began_lt, held, backed⟩ := ok
          exact ⟨began_lt.trans (by omega), keeps _ held, step.backed backed (.inl (locked held))⟩
      | answered answer =>
          obtain ⟨began_lt, recorded, past⟩ := ok
          refine ⟨began_lt.trans (by omega), step.recorded recorded, ?_⟩
          intro handler committedAt respondedAt responded earlier
          rcases step.responds handler kind committedAt respondedAt responded with already | late
          · exact past handler committedAt respondedAt already earlier
          · omega
  | handler change stage =>
      cases stage with
      | arrived => trivial
      | refused => trivial
      | committed => exact Nat.lt_of_lt_of_le ok (by omega)
      | clearing => exact ⟨Nat.lt_of_lt_of_le ok.1 (by omega), keeps _ ok.2⟩
      | cleared => exact Nat.lt_of_lt_of_le ok (by omega)
      | responded => exact Nat.lt_of_lt_of_le ok (by omega)

theorem StepBy.coherent (step : StepBy backing before after actor)
    (coherent : before.Coherent backing)
    (lands : ∀ task, actor = some task → after.TaskOk backing task (after.tasks task)) :
    after.Coherent backing where
  tasks := by
    intro task
    by_cases acts : actor = some task
    · exact lands task acts
    · rw [step.tasks task acts]
      exact step.taskOk_other acts (coherent.tasks task)
  entries := by
    intro kind key entry found
    have kept : (after.cell kind).entries ≠ .empty := by
      intro emptied
      rw [emptied] at found
      cases found
    rcases step.stores kind key entry found with held | ⟨task, began, -, fetched⟩
    · exact step.backed (coherent.entries kind key entry held) (.inr kept)
    · have ok := coherent.tasks task
      rw [fetched] at ok
      exact step.backed ok.2.2 (.inr kept)

theorem task_of_update {task : Nat} {stage : Task Key Value Change}
    (tasks : after.tasks = Function.update before.tasks task stage) (other : Nat) :
    (other = task ∧ after.tasks other = stage) ∨ after.tasks other = before.tasks other := by
  rw [tasks]
  by_cases acts : other = task
  · exact .inl ⟨acts, acts ▸ Function.update_self ..⟩
  · exact .inr (Function.update_of_ne acts ..)

theorem stepBy_of_move [DecidableEq Kind] {task : Nat} {stage : Task Key Value Change} {kind : Kind}
    {cell : Cell (Key kind) (Value kind)} (tick : after.tick = before.tick + 1)
    (reads : before.reads ⊆ after.reads)
    (tasks : after.tasks = Function.update before.tasks task stage)
    (cells : after.cell = Function.update before.cell kind cell)
    (writers : ∀ other, other ≠ task → before.holdsWriter other kind → cell.writer = some other)
    (clears : ∀ committedAt, stage.ClearedAt backing kind committedAt →
      (before.tasks task).ClearedAt backing kind committedAt ∨
        before.holdsWriter task kind ∧ cell.entries = .empty)
    (elsewhere : ∀ other committedAt, other ≠ kind → ¬stage.ClearedAt backing other committedAt)
    (responds : ∀ other committedAt respondedAt,
      stage.RespondedAt backing other committedAt respondedAt → before.tick ≤ respondedAt)
    (stores : ∀ key entry, cell.entries key = some entry →
      (before.cell kind).entries key = some entry ∨
        ∃ began, before.tasks task = .check kind key began (.fetched entry.value)) :
    StepBy backing before after (some task) where
  tick := tick
  reads := reads
  tasks := by
    intro other different
    rw [tasks, Function.update_of_ne (fun same => different (congrArg some same.symm))]
  writers := by
    intro other kind' different holds
    unfold holdsWriter
    rw [cells]
    by_cases same : kind' = kind
    · subst same
      rw [Function.update_self]
      exact writers other (fun same => different (congrArg some same.symm)) holds
    · rw [Function.update_of_ne same]
      exact holds
  clears := by
    intro other kind' committedAt cleared
    rcases task_of_update tasks other with ⟨rfl, moved⟩ | kept
    · rw [moved] at cleared
      by_cases same : kind' = kind
      · subst same
        rw [cells, Function.update_self]
        exact clears committedAt cleared
      · exact (elsewhere kind' committedAt same cleared).elim
    · exact .inl (kept ▸ cleared)
  responds := by
    intro other kind' committedAt respondedAt responded
    rcases task_of_update tasks other with ⟨-, moved⟩ | kept
    · exact .inr (responds kind' committedAt respondedAt (moved ▸ responded))
    · exact .inl (kept ▸ responded)
  stores := by
    intro kind' key entry found
    rw [cells] at found
    by_cases same : kind' = kind
    · subst same
      rw [Function.update_self] at found
      rcases stores key entry found with held | ⟨began, fetched⟩
      · exact .inl held
      · exact .inr ⟨task, began, rfl, fetched⟩
    · rw [Function.update_of_ne same] at found
      exact .inl found

end CacheState

end Filehost.Cache
