import Filehost.Cache.Coherence

namespace Filehost.Cache

open Filehost.Data

/-! # What later reads see of a commit

While what a change has committed stays in the tables, every database read made after the
commit has it. -/

variable {Kind : Type} {Key Value : Kind → Type} {Tables Change : Type}
variable {backing : Backing Kind Key Value Tables Change}

def HandlerStage.committedAt : HandlerStage → Option Nat
  | .arrived | .refused => none
  | .committed committedAt | .clearing committedAt | .cleared committedAt
  | .responded committedAt _ => some committedAt

def HandlerStage.respondedAt : HandlerStage → Option Nat
  | .responded _ respondedAt => some respondedAt
  | _ => none

namespace CacheState

def Committed (state : CacheState Key Value Tables Change) (change : Change) (committedAt : Nat) :
    Prop :=
  ∃ task stage, state.tasks task = .handler change stage ∧
    HandlerStage.committedAt stage = some committedAt

/-- What one step adds to the reads, the commits and the responses. -/
structure Progress (backing : Backing Kind Key Value Tables Change)
    (before after : CacheState Key Value Tables Change) : Prop where
  tick : before.tick ≤ after.tick
  reads : ∀ read ∈ after.reads, read ∈ before.reads ∨
    read.readAt = before.tick ∧ read.tables = before.tables ∧ before.tick < after.tick
  commits : ∀ change committedAt, after.Committed change committedAt →
    before.Committed change committedAt ∨
      committedAt = before.tick ∧ after.reads = before.reads ∧
        backing.execute change before.tables = some after.tables
  responses : ∀ task change stage respondedAt, after.tasks task = .handler change stage →
    stage.respondedAt = some respondedAt →
      before.tasks task = .handler change stage ∨
        respondedAt = before.tick ∧ before.tick < after.tick
  keeps : ∀ task change stage respondedAt, before.tasks task = .handler change stage →
    stage.respondedAt = some respondedAt → after.tasks task = .handler change stage

variable {before after : CacheState Key Value Tables Change} {task : Nat}

theorem Progress.refl (state : CacheState Key Value Tables Change) :
    Progress backing state state where
  tick := Nat.le_refl _
  reads _ held := .inl held
  commits _ _ committed := .inl committed
  responses _ _ _ _ stands _ := .inl stands
  keeps _ _ _ _ stands _ := stands

/-- A step of one task that has not responded. -/
theorem progress_of_update {stage : Task Key Value Change} (tick : after.tick = before.tick + 1)
    (tasks : after.tasks = Function.update before.tasks task stage)
    (running : ∀ change stage, before.tasks task = .handler change stage →
      stage.respondedAt = none)
    (reads : ∀ read ∈ after.reads, read ∈ before.reads ∨
      read.readAt = before.tick ∧ read.tables = before.tables)
    (commits : ∀ change stage' committedAt, stage = .handler change stage' →
      stage'.committedAt = some committedAt →
        before.Committed change committedAt ∨
          committedAt = before.tick ∧ after.reads = before.reads ∧
            backing.execute change before.tables = some after.tables)
    (responses : ∀ change stage' respondedAt, stage = .handler change stage' →
      stage'.respondedAt = some respondedAt → respondedAt = before.tick) :
    Progress backing before after where
  tick := by omega
  reads read held := (reads read held).imp_right fun new => ⟨new.1, new.2, by omega⟩
  commits := by
    rintro change committedAt ⟨other, standing, stands, committed⟩
    rcases task_of_update tasks other with ⟨-, moved⟩ | kept
    · exact commits change standing committedAt (moved.symm.trans stands) committed
    · exact .inl ⟨other, standing, kept ▸ stands, committed⟩
  responses := by
    intro other change standing respondedAt stands responded
    rcases task_of_update tasks other with ⟨-, moved⟩ | kept
    · exact .inr ⟨responses change standing respondedAt (moved.symm.trans stands) responded,
        by omega⟩
    · exact .inl (kept ▸ stands)
  keeps := by
    intro other change standing respondedAt stands responded
    by_cases acts : other = task
    · subst acts
      rw [running change standing stands] at responded
      cases responded
    · rw [tasks, Function.update_of_ne acts]
      exact stands

/-- A check commits and answers no change. -/
theorem progress_of_check {kind : Kind} {key : Key kind} {began : Nat}
    {stage : CheckStage (Value kind)} (tick : after.tick = before.tick + 1)
    (tasks : after.tasks = Function.update before.tasks task (.check kind key began stage))
    (running : ∀ change stage, before.tasks task = .handler change stage →
      stage.respondedAt = none)
    (reads : ∀ read ∈ after.reads, read ∈ before.reads ∨
      read.readAt = before.tick ∧ read.tables = before.tables) :
    Progress backing before after :=
  progress_of_update tick tasks running reads (fun _ _ _ impossible => nomatch impossible)
    (fun _ _ _ impossible => nomatch impossible)

theorem progress_of_handler {change : Change} {stage next : HandlerStage}
    (stands : before.tasks task = .handler change stage) (unanswered : stage.respondedAt = none)
    (tick : after.tick = before.tick + 1)
    (tasks : after.tasks = Function.update before.tasks task (.handler change next))
    (reads : after.reads = before.reads)
    (commits : ∀ committedAt, next.committedAt = some committedAt →
      stage.committedAt = some committedAt ∨
        committedAt = before.tick ∧ backing.execute change before.tables = some after.tables)
    (responses : ∀ respondedAt, next.respondedAt = some respondedAt →
      respondedAt = before.tick) :
    Progress backing before after := by
  refine progress_of_update tick tasks ?_ (fun _ held => .inl (reads ▸ held)) ?_ ?_
  · intro change' stage' same
    cases stands.symm.trans same
    exact unanswered
  · intro change' stage' committedAt same committed
    cases same
    rcases commits committedAt committed with already | ⟨now, executed⟩
    · exact .inl ⟨task, stage, stands, already⟩
    · exact .inr ⟨now, reads, executed⟩
  · intro change' stage' respondedAt same responded
    cases same
    exact responses respondedAt responded

section Steps

variable [DecidableEq Kind] {state : CacheState Key Value Tables Change}

theorem progress_of_advanceHandler {change : Change} {stage : HandlerStage}
    (stands : state.tasks task = .handler change stage) :
    Progress backing state (state.advanceHandler backing task change stage) := by
  cases stage with
  | arrived =>
      simp only [advanceHandler]
      cases executed : backing.execute change state.tables with
      | none =>
          exact progress_of_handler stands rfl rfl rfl rfl (fun _ none => nomatch none)
            (fun _ none => nomatch none)
      | some tables =>
          refine progress_of_handler stands rfl rfl rfl rfl (fun committedAt committed => ?_)
            (fun _ none => nomatch none)
          exact .inr ⟨(Option.some.inj committed).symm, executed⟩
  | committed committedAt =>
      exact progress_of_handler stands rfl rfl rfl rfl (fun _ committed => .inl committed)
        (fun _ none => nomatch none)
  | clearing committedAt =>
      exact progress_of_handler stands rfl rfl rfl rfl (fun _ committed => .inl committed)
        (fun _ none => nomatch none)
  | cleared committedAt =>
      exact progress_of_handler stands rfl rfl rfl rfl (fun _ committed => .inl committed)
        (fun _ responded => (Option.some.inj responded).symm)
  | refused => exact .refl state
  | responded committedAt respondedAt => exact .refl state

variable [∀ kind, DecidableEq (Key kind)]

theorem progress_of_advanceCheck {kind : Kind} {key : Key kind} {began : Nat}
    {stage : CheckStage (Value kind)} (stands : state.tasks task = .check kind key began stage) :
    Progress backing state (state.advanceCheck backing task kind key began stage) := by
  have running : ∀ change stage, state.tasks task = .handler change stage →
      stage.respondedAt = none := by
    intro change stage other
    rw [stands] at other
    cases other
  -- only the fetch adds a read
  unfold advanceCheck
  split
  · refine progress_of_check rfl rfl running fun read held => ?_
    rcases List.mem_cons.mp held with rfl | earlier
    · exact .inr ⟨rfl, rfl⟩
    · exact .inl earlier
  · exact progress_of_check rfl rfl running fun _ held => .inl held

theorem progress_of_step {event : CacheEvent Key Tables Change}
    (enabled : (cacheSystem backing).enabled state event) :
    Progress backing state ((cacheSystem backing).next state event) := by
  cases event with
  | beginCheck task kind key =>
      refine progress_of_check rfl rfl ?_ fun _ held => .inl held
      intro change stage other
      cases enabled.symm.trans other
  | beginHandler task change =>
      refine progress_of_update rfl rfl ?_ (fun _ held => .inl held) ?_ ?_
      · intro change' stage other
        cases enabled.symm.trans other
      · intro change' stage committedAt same committed
        cases same
        cases committed
      · intro change' stage respondedAt same responded
        cases same
        cases responded
  | advance task =>
      simp only [cacheSystem]
      cases stands : state.tasks task with
      | idle => exact .refl state
      | abandoned => exact .refl state
      | check kind key began stage => exact progress_of_advanceCheck stands
      | handler change stage => exact progress_of_advanceHandler stands
  | abandon task =>
      refine progress_of_update rfl rfl ?_ (fun _ held => .inl held)
        (fun _ _ _ impossible => nomatch impossible) (fun _ _ _ impossible => nomatch impossible)
      intro change stage stands
      cases stage with
      | responded =>
          simp only [cacheSystem] at enabled
          rw [stands] at enabled
          cases enabled
      | _ => rfl
  | elapse duration =>
      exact ⟨Nat.le_succ _, fun _ held => .inl held, fun _ _ committed => .inl committed,
        fun _ _ _ _ stands _ => .inl stands, fun _ _ _ _ stands _ => stands⟩
  | alter tables =>
      exact ⟨Nat.le_succ _, fun _ held => .inl held, fun _ _ committed => .inl committed,
        fun _ _ _ _ stands _ => .inl stands, fun _ _ _ _ stands _ => stands⟩

end Steps

/-! ## Commits that stay -/

/-- Every read, commit and response lies before now, and what a change that meets `lasting`
has committed is seen by the tables and by every read since. -/
structure Lasts (sees : Change → Tables → Prop) (state : CacheState Key Value Tables Change) :
    Prop where
  reads : ∀ read ∈ state.reads, read.readAt < state.tick
  responses : ∀ task change stage respondedAt, state.tasks task = .handler change stage →
    stage.respondedAt = some respondedAt → respondedAt < state.tick
  commits : ∀ change committedAt, state.Committed change committedAt →
    sees change state.tables ∧
      ∀ read ∈ state.reads, committedAt ≤ read.readAt → sees change read.tables

variable {sees : Change → Tables → Prop}

theorem lasts_initial (tables : Tables) (clock : ℚ) :
    Lasts sees (initial tables clock : CacheState Key Value Tables Change) where
  reads _ held := nomatch held
  responses _ _ _ _ stands := nomatch stands
  commits _ _ committed := by
    obtain ⟨_, _, stands, -⟩ := committed
    cases stands

/-- The step leaves in the tables what was committed before it. -/
def Upholds (sees : Change → Tables → Prop) (before after : CacheState Key Value Tables Change) :
    Prop :=
  ∀ change committedAt, before.Committed change committedAt → sees change after.tables

theorem Lasts.of_progress (lasts : Lasts sees before)
    (progress : Progress backing before after) (upheld : Upholds sees before after)
    (executed : ∀ change tables tables', backing.execute change tables = some tables' →
      sees change tables') :
    Lasts sees after where
  reads := by
    intro read held
    rcases progress.reads read held with earlier | ⟨now, -, later⟩
    · exact lt_of_lt_of_le (lasts.reads read earlier) progress.tick
    · exact now ▸ later
  responses := by
    intro task change stage respondedAt stands responded
    rcases progress.responses task change stage respondedAt stands responded with
      earlier | ⟨now, later⟩
    · exact lt_of_lt_of_le (lasts.responses task change stage respondedAt earlier responded)
        progress.tick
    · exact now ▸ later
  commits := by
    intro change committedAt committed
    rcases progress.commits change committedAt committed with earlier | ⟨now, same, ran⟩
    · refine ⟨upheld change committedAt earlier, fun read held since => ?_⟩
      rcases progress.reads read held with old | ⟨-, current, -⟩
      · exact (lasts.commits change committedAt earlier).2 read old since
      · exact current ▸ (lasts.commits change committedAt earlier).1
    · refine ⟨executed change _ _ ran, fun read held since => ?_⟩
      have old := lasts.reads read (same ▸ held)
      omega

end CacheState

end Filehost.Cache
