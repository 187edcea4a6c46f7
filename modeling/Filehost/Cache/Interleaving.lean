import Filehost.Cache.Coherence

namespace Filehost.Cache

open Filehost.Data

variable {Kind : Type} {Key Value : Kind → Type} {Tables Change : Type}
variable {backing : Backing Kind Key Value Tables Change}

namespace CacheState

variable {state after : CacheState Key Value Tables Change} {task : Nat}

theorem lands_of_update {stage : Task Key Value Change}
    (tasks : after.tasks = Function.update state.tasks task stage)
    (ok : after.TaskOk backing task stage) :
    ∀ other, some task = some other → after.TaskOk backing other (after.tasks other) := by
  intro other same
  cases same
  rw [tasks, Function.update_self]
  exact ok

theorem taskOk_answered {kind : Kind} {key : Key kind} {began : Nat}
    {answer : Fetched (Value kind)} (began_lt : began < after.tick)
    (backed : after.Backed backing kind key answer) :
    after.TaskOk backing task (.check kind key began (.answered answer)) := by
  refine ⟨began_lt, backed.1, ?_⟩
  intro other committedAt respondedAt responded _
  exact backed.2 other committedAt responded.clearedAt

theorem pastClears_of_check {kind other : Kind} {key : Key kind} {began readAt : Nat}
    {stage : CheckStage (Value kind)}
    (tasks : after.tasks = Function.update state.tasks task (.check kind key began stage))
    (past : state.PastClears backing other readAt) : after.PastClears backing other readAt := by
  intro handler committedAt cleared
  rcases task_of_update tasks handler with ⟨-, moved⟩ | kept
  · rw [moved] at cleared
    exact cleared.elim
  · exact past handler committedAt (kept ▸ cleared)

theorem stepBy_of_update {stage : Task Key Value Change} (tick : after.tick = state.tick + 1)
    (reads : after.reads = state.reads) (tasks : after.tasks = Function.update state.tasks task stage)
    (clears : ∀ kind committedAt, ¬stage.ClearedAt backing kind committedAt)
    (writers : ∀ other kind, other ≠ task → state.holdsWriter other kind →
      after.holdsWriter other kind)
    (entries : ∀ kind, (after.cell kind).entries = (state.cell kind).entries) :
    StepBy backing state after (some task) where
  tick := tick
  reads _ held := reads ▸ held
  tasks := by
    intro other different
    rw [tasks, Function.update_of_ne (fun same => different (congrArg some same.symm))]
  writers := fun other kind different =>
    writers other kind (fun same => different (congrArg some same.symm))
  clears := by
    intro other kind committedAt cleared
    rcases task_of_update tasks other with ⟨-, moved⟩ | kept
    · exact (clears kind committedAt (moved ▸ cleared)).elim
    · exact .inl (kept ▸ cleared)
  responds := by
    intro other kind committedAt respondedAt responded
    rcases task_of_update tasks other with ⟨-, moved⟩ | kept
    · rw [moved] at responded
      exact (clears kind committedAt responded.clearedAt).elim
    · exact .inl (kept ▸ responded)
  stores := by
    intro kind key entry found
    rw [entries] at found
    exact .inl found

theorem stepBy_of_rest (tick : after.tick = state.tick + 1) (reads : after.reads = state.reads)
    (tasks : after.tasks = state.tasks) (cells : after.cell = state.cell) :
    StepBy backing state after none where
  tick := tick
  reads _ held := reads ▸ held
  tasks _ _ := by rw [tasks]
  writers _ _ _ holds := by rwa [holdsWriter, cells]
  clears _ _ _ cleared := by
    rw [tasks] at cleared
    exact .inl cleared
  responds _ _ _ _ responded := by
    rw [tasks] at responded
    exact .inl responded
  stores _ _ _ found := by
    rw [cells] at found
    exact .inl found

theorem coherent_initial (tables : Tables) (clock : ℚ) :
    (initial tables clock : CacheState Key Value Tables Change).Coherent backing where
  tasks _ := trivial
  entries _ _ _ found := nomatch found

section Steps

variable [DecidableEq Kind]

theorem stepBy_of_check {kind : Kind} {key : Key kind} {began : Nat}
    {stage : CheckStage (Value kind)} {cell : Cell (Key kind) (Value kind)}
    (tick : after.tick = state.tick + 1) (reads : state.reads ⊆ after.reads)
    (tasks : after.tasks = Function.update state.tasks task (.check kind key began stage))
    (cells : after.cell = Function.update state.cell kind cell)
    (writers : ∀ other, other ≠ task → state.holdsWriter other kind → cell.writer = some other)
    (stores : ∀ key entry, cell.entries key = some entry →
      (state.cell kind).entries key = some entry ∨
        ∃ began, state.tasks task = .check kind key began (.fetched entry.value)) :
    StepBy backing state after (some task) :=
  stepBy_of_move tick reads tasks cells writers (fun _ cleared => cleared.elim)
    (fun _ _ _ cleared => cleared) (fun _ _ _ responded => responded.elim) stores

theorem stepBy_of_handler {change : Change} {stage : HandlerStage}
    {cell : Cell (Key (backing.invalidates change)) (Value (backing.invalidates change))}
    (tick : after.tick = state.tick + 1) (reads : state.reads ⊆ after.reads)
    (tasks : after.tasks = Function.update state.tasks task (.handler change stage))
    (cells : after.cell = Function.update state.cell (backing.invalidates change) cell)
    (writers : ∀ other, other ≠ task → state.holdsWriter other (backing.invalidates change) →
      cell.writer = some other)
    (clears : ∀ committedAt, (Task.handler change stage : Task Key Value Change).ClearedAt backing
        (backing.invalidates change) committedAt →
      (state.tasks task).ClearedAt backing (backing.invalidates change) committedAt ∨
        state.holdsWriter task (backing.invalidates change) ∧ cell.entries = .empty)
    (responds : ∀ kind committedAt respondedAt,
      (Task.handler change stage : Task Key Value Change).RespondedAt backing kind committedAt
        respondedAt → state.tick ≤ respondedAt)
    (stores : cell.entries = (state.cell (backing.invalidates change)).entries ∨
      cell.entries = .empty) :
    StepBy backing state after (some task) := by
  refine stepBy_of_move tick reads tasks cells writers clears ?_ responds ?_
  · intro kind committedAt different cleared
    cases stage with
    | cleared => exact different cleared.1.symm
    | responded => exact different cleared.1.symm
    | _ => exact cleared
  · intro key entry found
    rcases stores with same | emptied
    · rw [same] at found
      exact .inl found
    · rw [emptied] at found
      cases found

theorem coherent_of_advanceHandler {change : Change} {stage : HandlerStage}
    (coherent : state.Coherent backing) (stands : state.tasks task = .handler change stage)
    (ready : state.ready backing (.handler change stage)) :
    (state.advanceHandler backing task change stage).Coherent backing := by
  have ok := coherent.tasks task
  rw [stands] at ok
  cases stage with
  | arrived =>
      simp only [advanceHandler]
      cases executed : backing.execute change state.tables with
      | none =>
          have step : StepBy backing state (state.move task (.handler change .refused) _
              (state.cell (backing.invalidates change))) (some task) :=
            stepBy_of_handler rfl (fun _ held => held) rfl rfl (fun _ _ holds => holds)
              (fun _ cleared => cleared.elim) (fun _ _ _ responded => responded.elim) (.inl rfl)
          exact step.coherent coherent (lands_of_update rfl trivial)
      | some tables =>
          have step : StepBy backing state
              { state.move task (.handler change (.committed state.tick)) _
                  (state.cell (backing.invalidates change)) with tables } (some task) :=
            stepBy_of_handler rfl (fun _ held => held) rfl rfl (fun _ _ holds => holds)
              (fun _ cleared => cleared.elim) (fun _ _ _ responded => responded.elim) (.inl rfl)
          exact step.coherent coherent (lands_of_update rfl (Nat.lt_succ_self _))
  | committed committedAt =>
      have step : StepBy backing state
          (state.advanceHandler backing task change (.committed committedAt)) (some task) := by
        refine stepBy_of_handler rfl (fun _ held => held) rfl rfl ?_
          (fun _ cleared => cleared.elim) (fun _ _ _ responded => responded.elim) (.inl rfl)
        intro other _ holds
        cases ready.1.symm.trans holds
      refine step.coherent coherent (lands_of_update rfl ⟨Nat.lt_succ_of_lt ok, ?_⟩)
      simp [advanceHandler, move, holdsWriter]
  | clearing committedAt =>
      obtain ⟨committed_lt, held⟩ := ok
      have step : StepBy backing state
          (state.advanceHandler backing task change (.clearing committedAt)) (some task) :=
        stepBy_of_handler rfl (fun _ held => held) rfl rfl (fun _ => KeyedTtlCache.release_writer_other)
          (fun _ _ => .inr ⟨held, rfl⟩) (fun _ _ _ responded => responded.elim) (.inr rfl)
      exact step.coherent coherent (lands_of_update rfl (Nat.lt_succ_of_lt committed_lt))
  | cleared committedAt =>
      have step : StepBy backing state
          (state.advanceHandler backing task change (.cleared committedAt)) (some task) := by
        refine stepBy_of_handler rfl (fun _ held => held) rfl rfl (fun _ _ holds => holds)
          ?_ ?_ (.inl rfl)
        · intro other cleared
          rw [stands]
          exact .inl cleared
        · intro kind other respondedAt responded
          obtain ⟨-, -, rfl⟩ := responded
          exact Nat.le_refl _
      exact step.coherent coherent (lands_of_update rfl (Nat.lt_succ_of_lt ok))
  | refused => exact coherent
  | responded committedAt respondedAt => exact coherent

/-- What a look finds may be answered. -/
theorem taskOk_of_hit {kind : Kind} {key : Key kind} {began : Nat} {answer : Fetched (Value kind)}
    {cell : Cell (Key kind) (Value kind)} (coherent : state.Coherent backing)
    (began_lt : began < state.tick)
    (found : (state.cell kind).entries.lookup backing.ttl state.clock key = some answer) :
    (state.move task (.check kind key began (.answered answer)) kind cell).TaskOk backing task
      (.check kind key began (.answered answer)) := by
  obtain ⟨entry, present, rfl, -⟩ := Entries.lookup_eq_some found
  obtain ⟨recorded, past⟩ := coherent.entries kind key entry present
  exact taskOk_answered (Nat.lt_succ_of_lt began_lt) ⟨recorded, pastClears_of_check rfl past⟩

variable [∀ kind, DecidableEq (Key kind)]

theorem stepBy_of_advanceCheck {kind : Kind} {key : Key kind} {began : Nat}
    {stage : CheckStage (Value kind)} (stands : state.tasks task = .check kind key began stage)
    (ready : state.ready backing (.check kind key began stage)) :
    StepBy backing state (state.advanceCheck backing task kind key began stage) (some task) := by
  unfold advanceCheck
  split
  · exact stepBy_of_check rfl (fun _ => List.mem_cons_of_mem _) rfl rfl (fun _ _ holds => holds)
      (fun _ _ held => .inl held)
  · refine stepBy_of_check rfl (fun _ held => held) rfl rfl
      (fun _ => KeyedTtlCache.getOrRefresh_writer_other fun missed => ?_) fun other entry found => ?_
    · subst missed
      exact ready.1
    · rcases KeyedTtlCache.getOrRefresh_entries found with held | ⟨fresh, rfl, rfl, rfl⟩
      · exact .inl held
      · exact .inr ⟨began, stands⟩

theorem coherent_of_advanceCheck {kind : Kind} {key : Key kind} {began : Nat}
    {stage : CheckStage (Value kind)} (coherent : state.Coherent backing)
    (stands : state.tasks task = .check kind key began stage)
    (ready : state.ready backing (.check kind key began stage)) :
    (state.advanceCheck backing task kind key began stage).Coherent backing := by
  have ok := coherent.tasks task
  rw [stands] at ok
  have step := stepBy_of_advanceCheck stands ready
  cases stage with
  | started => exact step.coherent coherent (lands_of_update rfl (Nat.lt_succ_of_lt ok))
  | reading =>
      simp only [advanceCheck, KeyedTtlCache.getOrRefresh] at step ⊢
      cases found : (state.cell kind).entries.lookup backing.ttl state.clock key with
      | some answer =>
          rw [found] at step
          exact step.coherent coherent (lands_of_update rfl (taskOk_of_hit coherent ok found))
      | none =>
          rw [found] at step
          exact step.coherent coherent (lands_of_update rfl (Nat.lt_succ_of_lt ok))
  | missed =>
      refine step.coherent coherent (lands_of_update rfl ⟨Nat.lt_succ_of_lt ok, ?_⟩)
      simp [advanceCheck, move, holdsWriter, KeyedTtlCache.getOrRefresh]
  | writing =>
      obtain ⟨began_lt, held⟩ := ok
      simp only [advanceCheck, KeyedTtlCache.getOrRefresh] at step ⊢
      cases found : (state.cell kind).entries.lookup backing.ttl state.clock key with
      | some answer =>
          rw [found] at step
          exact step.coherent coherent (lands_of_update rfl (taskOk_of_hit coherent began_lt found))
      | none =>
          rw [found] at step
          refine step.coherent coherent (lands_of_update rfl ⟨Nat.lt_succ_of_lt began_lt, ?_⟩)
          simpa [move, holdsWriter] using held
  | fetching startedAt =>
      obtain ⟨began_lt, held⟩ := ok
      refine step.coherent coherent
        (lands_of_update rfl ⟨Nat.lt_succ_of_lt began_lt, ?_, ⟨_, _, List.mem_cons_self, rfl⟩, ?_⟩)
      · simpa [advanceCheck, move, holdsWriter] using held
      · exact pastClears_of_check rfl (coherent.pastClears_tick kind)
  | fetched answer =>
      obtain ⟨began_lt, held, recorded, past⟩ := ok
      refine step.coherent coherent (lands_of_update rfl
        ⟨Nat.lt_succ_of_lt began_lt, ?_, recorded, pastClears_of_check rfl past⟩)
      simpa [advanceCheck, move, holdsWriter, KeyedTtlCache.getOrRefresh] using held
  | retaining answer =>
      obtain ⟨began_lt, -, recorded, past⟩ := ok
      exact step.coherent coherent (lands_of_update rfl
        (taskOk_answered (Nat.lt_succ_of_lt began_lt) ⟨recorded, pastClears_of_check rfl past⟩))
  | answered answer => cases ready

theorem coherent_step {event : CacheEvent Key Tables Change} (coherent : state.Coherent backing)
    (enabled : (cacheSystem backing).enabled state event) :
    ((cacheSystem backing).next state event).Coherent backing := by
  cases event with
  | beginCheck task kind key =>
      have step : StepBy backing state ((cacheSystem backing).next state (.beginCheck task kind key))
          (some task) :=
        stepBy_of_update rfl rfl rfl (fun _ _ cleared => cleared) (fun _ _ _ holds => holds)
          (fun _ => rfl)
      exact step.coherent coherent (lands_of_update rfl (Nat.lt_succ_self _))
  | beginHandler task change =>
      have step : StepBy backing state ((cacheSystem backing).next state (.beginHandler task change))
          (some task) :=
        stepBy_of_update rfl rfl rfl (fun _ _ cleared => cleared) (fun _ _ _ holds => holds)
          (fun _ => rfl)
      exact step.coherent coherent (lands_of_update rfl trivial)
  | advance task =>
      simp only [cacheSystem] at enabled ⊢
      cases stands : state.tasks task with
      | idle => exact coherent
      | abandoned => exact coherent
      | check kind key began stage =>
          exact coherent_of_advanceCheck coherent stands (stands ▸ enabled)
      | handler change stage =>
          exact coherent_of_advanceHandler coherent stands (stands ▸ enabled)
  | abandon task =>
      have step : StepBy backing state ((cacheSystem backing).next state (.abandon task))
          (some task) :=
        stepBy_of_update rfl rfl rfl (fun _ _ cleared => cleared)
          (fun _ _ => KeyedTtlCache.release_writer_other) (fun _ => rfl)
      exact step.coherent coherent (lands_of_update rfl trivial)
  | elapse duration =>
      have step : StepBy backing state ((cacheSystem backing).next state (.elapse duration)) none :=
        stepBy_of_rest rfl rfl rfl rfl
      exact step.coherent coherent (fun _ impossible => nomatch impossible)
  | alter tables =>
      have step : StepBy backing state ((cacheSystem backing).next state (.alter tables)) none :=
        stepBy_of_rest rfl rfl rfl rfl
      exact step.coherent coherent (fun _ impossible => nomatch impossible)

theorem coherent_of_run {tables : Tables} {clock : ℚ} {events : List (CacheEvent Key Tables Change)}
    (run : (cacheSystem backing).Run (initial tables clock) events state) :
    state.Coherent backing :=
  run.invariant (coherent_initial tables clock) fun _ _ => coherent_step

/-- An answer to a check that began after a handler responded was read no
earlier than the handler's commit. -/
theorem answer_reads_after_commit {tables : Tables} {clock : ℚ}
    {events : List (CacheEvent Key Tables Change)}
    (run : (cacheSystem backing).Run (initial tables clock) events state)
    {checker handler : Nat} {change : Change} {key : Key (backing.invalidates change)}
    {began committedAt respondedAt : Nat} {answer : Fetched (Value (backing.invalidates change))}
    (checked : state.tasks checker =
      .check (backing.invalidates change) key began (.answered answer))
    (responded : state.tasks handler = .handler change (.responded committedAt respondedAt))
    (after : respondedAt < began) :
    committedAt ≤ answer.readAt ∧ state.Recorded backing (backing.invalidates change) key answer := by
  have ok := (coherent_of_run run).tasks checker
  rw [checked] at ok
  obtain ⟨-, recorded, past⟩ := ok
  refine ⟨past handler committedAt respondedAt ?_ after, recorded⟩
  rw [responded]
  exact ⟨rfl, rfl, rfl⟩

end Steps

end CacheState

end Filehost.Cache
