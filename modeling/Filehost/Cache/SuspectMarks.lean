import Filehost.Cache.SuspectCache
import Mathlib.Tactic.Linarith

namespace Filehost.Cache

open Filehost.Data Filehost.Database Filehost.Ip Filehost.Store Filehost.Upload

/-! # What a scan's mark is worth -/

def SuspectTask.unmarked : SuspectTask → Prop
  | .scan _ _ _ (.marked _ _ _) => False
  | _ => True

namespace SuspectState

variable {settings : SuspectSettings} {state before after : SuspectState} {actor : Option Nat}
  {task : Nat} {client ip : IpAddr}

def holdsWriter (state : SuspectState) (task : Nat) : Prop := state.cell.writer = some task

/-- Some mark stands for an upload that counts as the client's. -/
def Suspected (state : SuspectState) (client : IpAddr) : Prop :=
  ∃ ip markedAt, state.StandingMark ip markedAt ∧ countedBy client ip

/-- What a scan that goes on to a mark has written. -/
structure Scored (settings : SuspectSettings) (state : SuspectState) (id : Uuid)
    (uploaderIp : Option IpAddr) (score : ℚ) (ip : IpAddr) (recordedAt : Option Nat) : Prop where
  uploader : uploaderIp = some ip
  high : settings.nsfwThreshold ≤ score
  earlier : ∀ tick ∈ recordedAt, tick < state.tick
  written : ∀ tick ∈ recordedAt, state.scoredAt id = some tick → state.scores id = some score

def CheckOk (state : SuspectState) (task : Nat) (client : IpAddr) (began : Nat) :
    CheckStage Bool → Prop
  | .started | .reading | .missed => True
  | .writing | .fetching _ => state.holdsWriter task
  | .fetched answer | .retaining answer =>
      state.holdsWriter task ∧ (state.Suspected client → answer.value = true)
  | .answered answer => ∀ ip markedAt, state.StandingMark ip markedAt → countedBy client ip →
      markedAt < began → answer.value = true

def ScanOk (settings : SuspectSettings) (state : SuspectState) (task : Nat) (id : Uuid)
    (uploaderIp : Option IpAddr) (score : ℚ) : ScanStage → Prop
  | .classified | .ended => True
  | .recorded ip recordedAt | .marked ip recordedAt _ =>
      state.Scored settings id uploaderIp score ip recordedAt
  | .storing ip recordedAt =>
      state.holdsWriter task ∧ state.Scored settings id uploaderIp score ip recordedAt

def TaskOk (settings : SuspectSettings) (state : SuspectState) (task : Nat) : SuspectTask → Prop
  | .idle | .abandoned => True
  | .check client began stage => began < state.tick ∧ state.CheckOk task client began stage
  | .scan id uploaderIp score stage =>
      state.Uploaded id uploaderIp ∧ state.ScanOk settings task id uploaderIp score stage

structure Coherent (settings : SuspectSettings) (state : SuspectState) : Prop where
  tasks : ∀ task, state.TaskOk settings task (state.tasks task)
  answers : ∀ client answer, state.lookup settings client = some answer →
    state.Suspected client → answer.value = true

/-! ## The table -/

/-- What a step does to the table: rows stay, new rows have new keys, and scores
change where the step says so. -/
structure TableStep (before after : SuspectState) : Prop where
  clock : before.clock ≤ after.clock
  keeps : ∀ row ∈ before.uploads.rows, ∃ later ∈ after.uploads.rows,
    later.id = row.id ∧ later.uploaderIp = row.uploaderIp
  comes : ∀ row ∈ after.uploads.rows, row.id ∈ before.uploads.rows.map Upload.id →
    ∃ earlier ∈ before.uploads.rows, earlier.id = row.id ∧
      earlier.uploadTimestamp = row.uploadTimestamp
  scored : ∀ id ∈ before.uploads.rows.map Upload.id, ∀ tick < before.tick,
    after.scoredAt id = some tick →
      before.scoredAt id = some tick ∧ after.scores id = before.scores id

theorem TableStep.of_same (clock : before.clock ≤ after.clock)
    (uploads : after.uploads = before.uploads) (scores : after.scores = before.scores)
    (scoredAt : after.scoredAt = before.scoredAt) : TableStep before after where
  clock := clock
  keeps row member := ⟨row, uploads ▸ member, rfl, rfl⟩
  comes row member _ := ⟨row, uploads ▸ member, rfl, rfl⟩
  scored id _ tick _ written := ⟨scoredAt ▸ written, by rw [scores]⟩

theorem Uploaded.key {id : Uuid} {uploaderIp : Option IpAddr} (uploaded : state.Uploaded id uploaderIp)
    (uploader : uploaderIp = some ip) : id ∈ state.uploads.rows.map Upload.id := by
  obtain ⟨row, member, same, -⟩ := uploaded ip uploader
  exact List.mem_map.mpr ⟨row, member, same⟩

theorem TableStep.uploaded (step : TableStep before after) {id : Uuid} {uploaderIp : Option IpAddr}
    (uploaded : before.Uploaded id uploaderIp) : after.Uploaded id uploaderIp := by
  intro ip uploader
  obtain ⟨row, member, rfl, bytes⟩ := uploaded ip uploader
  obtain ⟨later, laterMember, sameId, sameIp⟩ := step.keeps row member
  exact ⟨later, laterMember, sameId, sameIp.trans bytes⟩

theorem TableStep.scoredBy (step : TableStep before after) (tick : after.tick = before.tick + 1)
    {id : Uuid} {uploaderIp : Option IpAddr} {score : ℚ} {recordedAt : Option Nat}
    (uploaded : before.Uploaded id uploaderIp)
    (scored : before.Scored settings id uploaderIp score ip recordedAt) :
    after.Scored settings id uploaderIp score ip recordedAt where
  uploader := scored.uploader
  high := scored.high
  earlier moment recorded := by
    have earlier := scored.earlier moment recorded
    omega
  written moment recorded now := by
    obtain ⟨already, same⟩ := step.scored id (uploaded.key scored.uploader) moment
      (scored.earlier moment recorded) now
    exact same.trans (scored.written moment recorded already)

theorem lastWeek_of_later {earlier later : Int} (ordered : earlier ≤ later) {row row' : Upload}
    (same : row.uploadTimestamp = row'.uploadTimestamp) (recent : lastWeek later row' = true) :
    lastWeek earlier row = true := by
  simp only [lastWeek, decide_eq_true_eq] at recent ⊢
  omega

/-- A mark that counts after a step counts before it. -/
theorem TableStep.recent (step : TableStep before after) {id : Uuid} {recordedAt : Nat}
    (earlier : recordedAt < before.tick) (key : id ∈ before.uploads.rows.map Upload.id)
    (recent : after.Recent id recordedAt) : before.Recent id recordedAt := by
  obtain ⟨scored, row, member, rfl, week⟩ := recent
  obtain ⟨row', member', same, timestamp⟩ := step.comes row member key
  exact ⟨(step.scored row.id key recordedAt earlier scored).1, row', member', same,
    lastWeek_of_later (Int.floor_mono step.clock) timestamp week⟩

theorem Coherent.scored (coherent : state.Coherent settings) {id : Uuid}
    {uploaderIp : Option IpAddr} {score : ℚ} {recordedAt : Option Nat} {markedAt : Nat}
    (stands : state.tasks task = .scan id uploaderIp score (.marked ip recordedAt markedAt)) :
    state.Uploaded id uploaderIp ∧ state.Scored settings id uploaderIp score ip recordedAt := by
  have ok := coherent.tasks task
  rwa [stands] at ok

theorem standing_of_kept (coherent : before.Coherent settings) (step : TableStep before after)
    (kept : ∀ task id uploaderIp score ip recordedAt markedAt,
      after.tasks task = .scan id uploaderIp score (.marked ip recordedAt markedAt) →
        before.tasks task = .scan id uploaderIp score (.marked ip recordedAt markedAt))
    {markedAt : Nat} (stands : after.StandingMark ip markedAt) : before.StandingMark ip markedAt := by
  obtain ⟨task, id, uploaderIp, score, recordedAt, marked, recent⟩ := stands
  have marked := kept _ _ _ _ _ _ _ marked
  obtain ⟨uploaded, scored⟩ := coherent.scored marked
  exact ⟨task, id, uploaderIp, score, recordedAt, marked,
    step.recent (scored.earlier recordedAt rfl) (uploaded.key scored.uploader) recent⟩

/-- The table answers that a suspect is one. -/
theorem hasNsfw_of_suspected (coherent : state.Coherent settings)
    (suspected : state.Suspected client) :
    hasNsfwUploadLastWeek state.uploads state.scores client state.databaseNow
      settings.nsfwThreshold = true := by
  obtain ⟨ip, markedAt, ⟨task, id, uploaderIp, score, recordedAt, marked, current, row, member, rfl,
    week⟩, counted⟩ := suspected
  obtain ⟨uploaded, scored⟩ := coherent.scored marked
  obtain ⟨row', member', same, bytes⟩ := uploaded ip scored.uploader
  cases Uploads.eq_of_same_id member' member same
  refine List.any_eq_true.mpr ⟨row, member, ?_⟩
  have inside : inQuotaRange client row.uploaderIp = true := by
    rw [bytes, inQuotaRange, Bool.and_eq_true, decide_eq_true_eq, decide_eq_true_eq]
    exact counted
  rw [inside, week, scored.written recordedAt rfl current]
  simpa using scored.high

/-! ## One step -/

/-- What one step can do: `actor` alone moves, it takes no guard from another task,
and it adds a mark only under the write lock, where it leaves no negative answer to
those that count as the uploader. -/
structure SuspectStep (settings : SuspectSettings) (before after : SuspectState)
    (actor : Option Nat) : Prop where
  tick : after.tick = before.tick + 1
  table : TableStep before after
  tasks : ∀ task, actor ≠ some task → after.tasks task = before.tasks task
  writers : ∀ task, actor ≠ some task → before.holdsWriter task → after.holdsWriter task
  standing : ∀ ip markedAt, after.StandingMark ip markedAt → before.StandingMark ip markedAt ∨
    markedAt = before.tick ∧ before.cell.writer = actor ∧
      ∀ client answer, countedBy client ip → after.lookup settings client = some answer →
        answer.value = true
  answers : ∀ client answer, after.lookup settings client = some answer →
    before.lookup settings client = some answer ∨ (after.Suspected client → answer.value = true)

theorem SuspectStep.checkOk_other (step : SuspectStep settings before after actor)
    (other : actor ≠ some task) {began : Nat} (earlier : began < before.tick)
    {stage : CheckStage Bool} (ok : before.CheckOk task client began stage) :
    after.CheckOk task client began stage := by
  have unsuspected : ∀ {answer : Fetched Bool}, before.holdsWriter task →
      (before.Suspected client → answer.value = true) →
        after.Suspected client → answer.value = true := by
    rintro answer held truthful ⟨ip, markedAt, stands, counted⟩
    rcases step.standing ip markedAt stands with already | ⟨-, owner, -⟩
    · exact truthful ⟨ip, markedAt, already, counted⟩
    · exact absurd (owner.symm.trans held) other
  cases stage with
  | started => trivial
  | reading => trivial
  | missed => trivial
  | writing => exact step.writers task other ok
  | fetching => exact step.writers task other ok
  | fetched answer => exact ⟨step.writers task other ok.1, unsuspected ok.1 ok.2⟩
  | retaining answer => exact ⟨step.writers task other ok.1, unsuspected ok.1 ok.2⟩
  | answered answer =>
      intro ip markedAt stands counted first
      rcases step.standing ip markedAt stands with already | ⟨rfl, -, -⟩
      · exact ok ip markedAt already counted first
      · omega

theorem SuspectStep.scanOk_other (step : SuspectStep settings before after actor)
    (other : actor ≠ some task) {id : Uuid} {uploaderIp : Option IpAddr} {score : ℚ}
    {stage : ScanStage} (uploaded : before.Uploaded id uploaderIp)
    (ok : before.ScanOk settings task id uploaderIp score stage) :
    after.ScanOk settings task id uploaderIp score stage := by
  cases stage with
  | classified => trivial
  | ended => trivial
  | recorded ip recordedAt => exact step.table.scoredBy step.tick uploaded ok
  | marked ip recordedAt markedAt => exact step.table.scoredBy step.tick uploaded ok
  | storing ip recordedAt =>
      exact ⟨step.writers task other ok.1, step.table.scoredBy step.tick uploaded ok.2⟩

theorem SuspectStep.taskOk_other (step : SuspectStep settings before after actor)
    (other : actor ≠ some task) {stage : SuspectTask} (ok : before.TaskOk settings task stage) :
    after.TaskOk settings task stage := by
  cases stage with
  | idle => trivial
  | abandoned => trivial
  | check client began stage =>
      have later := step.tick
      exact ⟨by have earlier := ok.1; omega, step.checkOk_other other ok.1 ok.2⟩
  | scan id uploaderIp score stage =>
      exact ⟨step.table.uploaded ok.1, step.scanOk_other other ok.1 ok.2⟩

theorem SuspectStep.coherent (step : SuspectStep settings before after actor)
    (coherent : before.Coherent settings)
    (lands : ∀ task, actor = some task → after.TaskOk settings task (after.tasks task)) :
    after.Coherent settings where
  tasks := by
    intro task
    by_cases acts : actor = some task
    · exact lands task acts
    · rw [step.tasks task acts]
      exact step.taskOk_other acts (coherent.tasks task)
  answers := by
    intro client answer found suspected
    rcases step.answers client answer found with held | ok
    · obtain ⟨ip, markedAt, stands, counted⟩ := suspected
      rcases step.standing ip markedAt stands with already | ⟨-, -, told⟩
      · exact coherent.answers client answer held ⟨ip, markedAt, already, counted⟩
      · exact told client answer counted found
    · exact ok suspected

/-! ## The steps -/

theorem lands_of_stage {stage : SuspectTask} {tasks : Nat → SuspectTask}
    (same : after.tasks = Function.update tasks task stage)
    (ok : after.TaskOk settings task stage) :
    ∀ other, some task = some other → after.TaskOk settings other (after.tasks other) := by
  intro other acts
  cases acts
  rw [same, Function.update_self]
  exact ok

theorem marked_of_update {stage : SuspectTask} (quiet : stage.unmarked)
    (same : after.tasks = Function.update before.tasks task stage) {other : Nat} {id : Uuid}
    {uploaderIp : Option IpAddr} {score : ℚ} {recordedAt : Option Nat} {markedAt : Nat}
    (marked : after.tasks other = .scan id uploaderIp score (.marked ip recordedAt markedAt)) :
    before.tasks other = .scan id uploaderIp score (.marked ip recordedAt markedAt) := by
  rw [same] at marked
  by_cases acts : other = task
  · subst acts
    rw [Function.update_self] at marked
    subst marked
    exact quiet.elim
  · rwa [Function.update_of_ne acts] at marked

/-- A task moves on without a mark. -/
theorem step_of_quiet {stage : SuspectTask} (coherent : before.Coherent settings)
    (table : TableStep before after) (tick : after.tick = before.tick + 1)
    (tasks : after.tasks = Function.update before.tasks task stage) (quiet : stage.unmarked)
    (writers : ∀ other, other ≠ task → before.holdsWriter other → after.holdsWriter other)
    (answers : ∀ client answer, after.lookup settings client = some answer →
      before.lookup settings client = some answer ∨ (after.Suspected client → answer.value = true)) :
    SuspectStep settings before after (some task) where
  tick := tick
  table := table
  tasks other different := by
    rw [tasks, Function.update_of_ne fun same => different (congrArg some same.symm)]
  writers other different := writers other fun same => different (congrArg some same.symm)
  standing ip markedAt stands :=
    .inl (standing_of_kept coherent table (fun _ _ _ _ _ _ _ => marked_of_update quiet tasks) stands)
  answers := answers

theorem writers_of_free (free : state.cell.writer = none) (writer : Option Nat) :
    ∀ other, other ≠ task → state.holdsWriter other → writer = some other := by
  intro other _ holds
  rw [holdsWriter, free] at holds
  contradiction

/-- A task moves on and adds nothing to the map. -/
theorem coherent_of_quiet {stage : SuspectTask} {cell : Cell IpAddr Bool}
    (coherent : state.Coherent settings) (quiet : stage.unmarked)
    (writers : ∀ other, other ≠ task → state.holdsWriter other → cell.writer = some other)
    (looks : ∀ client answer, cell.entries.lookup settings.ttl state.clock client = some answer →
      state.lookup settings client = some answer)
    (ok : (state.move task stage cell).TaskOk settings task stage) :
    (state.move task stage cell).Coherent settings := by
  have step : SuspectStep settings state (state.move task stage cell) (some task) :=
    step_of_quiet coherent (.of_same (le_refl _) rfl rfl rfl) rfl rfl quiet writers
      fun client answer found => .inl (looks client answer found)
  exact step.coherent coherent (lands_of_stage rfl ok)

theorem suspected_of_check {cell : Cell IpAddr Bool} {began : Nat} {stage : CheckStage Bool}
    (coherent : state.Coherent settings)
    (suspected : (state.move task (.check ip began stage) cell).Suspected client) :
    state.Suspected client := by
  obtain ⟨other, markedAt, stands, counted⟩ := suspected
  have table : TableStep state (state.move task (.check ip began stage) cell) :=
    .of_same (le_refl _) rfl rfl rfl
  have kept := standing_of_kept coherent table (fun _ _ _ _ _ _ _ marked =>
    @marked_of_update _ _ task _ (.check ip began stage) trivial rfl _ _ _ _ _ _ marked) stands
  exact ⟨other, markedAt, kept, counted⟩

/-- What is true of every suspect may be answered. -/
theorem answeredOk {cell : Cell IpAddr Bool} {began : Nat} {answer : Fetched Bool}
    (coherent : state.Coherent settings) (truthful : state.Suspected ip → answer.value = true) :
    (state.move task (.check ip began (.answered answer)) cell).CheckOk task ip began
      (.answered answer) := by
  intro other markedAt stands counted _
  exact truthful (suspected_of_check coherent ⟨other, markedAt, stands, counted⟩)

theorem step_of_advanceCheck {began : Nat} {stage : CheckStage Bool}
    (coherent : state.Coherent settings) (stands : state.tasks task = .check ip began stage)
    (ready : state.ready (.check ip began stage)) :
    SuspectStep settings state (state.advanceCheck settings task ip began stage) (some task) := by
  have table : ∀ {stage cell}, TableStep state (state.move task (.check ip began stage) cell) :=
    .of_same (le_refl _) rfl rfl rfl
  unfold advanceCheck
  split
  · exact step_of_quiet coherent table rfl rfl trivial (fun _ _ holds => holds)
      fun _ _ found => .inl found
  · refine step_of_quiet coherent table rfl rfl trivial
      (fun _ => KeyedTtlCache.getOrRefresh_writer_other fun missed => ?_)
      fun client answer found => ?_
    · subst missed
      exact ready.1
    · rcases KeyedTtlCache.getOrRefresh_lookup found with held | ⟨fresh, rfl, rfl, rfl⟩
      · exact .inl held
      · have ok := coherent.tasks task
        rw [stands] at ok
        exact .inr fun suspected => ok.2.2 (suspected_of_check coherent suspected)

theorem coherent_of_advanceCheck {began : Nat} {stage : CheckStage Bool}
    (coherent : state.Coherent settings) (stands : state.tasks task = .check ip began stage)
    (ready : state.ready (.check ip began stage)) :
    (state.advanceCheck settings task ip began stage).Coherent settings := by
  have ok := coherent.tasks task
  rw [stands] at ok
  obtain ⟨earlier, ok⟩ := ok
  have step := step_of_advanceCheck coherent stands ready
  have lands : ∀ {stage cell},
      (state.move task (.check ip began stage) cell).CheckOk task ip began stage →
        ∀ other, some task = some other →
          (state.move task (.check ip began stage) cell).TaskOk settings other
            ((state.move task (.check ip began stage) cell).tasks other) :=
    fun ok => lands_of_stage rfl ⟨Nat.lt_succ_of_lt earlier, ok⟩
  cases stage with
  | started => exact step.coherent coherent (lands trivial)
  | reading =>
      simp only [advanceCheck, KeyedTtlCache.getOrRefresh] at step ⊢
      cases found : state.cell.entries.lookup settings.ttl state.clock ip with
      | some answer =>
          rw [found] at step
          exact step.coherent coherent
            (lands (answeredOk coherent (coherent.answers ip answer found)))
      | none =>
          rw [found] at step
          exact step.coherent coherent (lands trivial)
  | missed => exact step.coherent coherent (lands rfl)
  | writing =>
      simp only [advanceCheck, KeyedTtlCache.getOrRefresh] at step ⊢
      cases found : state.cell.entries.lookup settings.ttl state.clock ip with
      | some answer =>
          rw [found] at step
          exact step.coherent coherent
            (lands (answeredOk coherent (coherent.answers ip answer found)))
      | none =>
          rw [found] at step
          exact step.coherent coherent (lands ok)
  | fetching startedAt =>
      exact step.coherent coherent (lands ⟨ok, fun suspected =>
        hasNsfw_of_suspected coherent (suspected_of_check coherent suspected)⟩)
  | fetched answer =>
      exact step.coherent coherent (lands ⟨ok.1, fun suspected =>
        ok.2 (suspected_of_check coherent suspected)⟩)
  | retaining answer => exact step.coherent coherent (lands (answeredOk coherent ok.2))
  | answered answer => cases ready

/-! ### Scans -/

theorem coherent_of_recorded {id : Uuid} {uploaderIp : Option IpAddr} {score : ℚ}
    {after : SuspectState} {recordedAt : Option Nat} (coherent : state.Coherent settings)
    (stands : state.tasks task = .scan id uploaderIp score .classified)
    (table : TableStep state after) (tick : after.tick = state.tick + 1)
    (cell : after.cell = state.cell) (clock : after.clock = state.clock)
    (tasks : after.tasks = Function.update state.tasks task
      (.scan id uploaderIp score (afterUpdate settings uploaderIp score recordedAt)))
    (written : ∀ moment ∈ recordedAt, moment < after.tick ∧ after.scores id = some score) :
    after.Coherent settings := by
  have ok := coherent.tasks task
  rw [stands] at ok
  obtain ⟨uploaded, -⟩ := ok
  have quiet : SuspectTask.unmarked
      (.scan id uploaderIp score (afterUpdate settings uploaderIp score recordedAt)) := by
    unfold afterUpdate
    split
    · split <;> trivial
    · trivial
  have step : SuspectStep settings state after (some task) := by
    refine step_of_quiet coherent table tick tasks quiet (fun _ _ holds => ?_) fun _ _ found => ?_
    · rwa [holdsWriter, cell]
    · rw [lookup, cell, clock] at found
      exact .inl found
  refine step.coherent coherent (lands_of_stage tasks ⟨table.uploaded uploaded, ?_⟩)
  unfold afterUpdate
  split
  · split
    · rename_i high
      exact ⟨rfl, high, fun moment recorded => (written moment recorded).1,
        fun moment recorded _ => (written moment recorded).2⟩
    · trivial
  · trivial

theorem table_updateNsfwScore (state : SuspectState) (id : Uuid) (score : ℚ) {after : SuspectState}
    (clock : after.clock = state.clock) (uploads : after.uploads = state.uploads)
    (scores : after.scores = (state.updateNsfwScore id score).scores)
    (scoredAt : after.scoredAt = (state.updateNsfwScore id score).scoredAt) :
    TableStep state after where
  clock := clock.ge
  keeps row member := ⟨row, uploads ▸ member, rfl, rfl⟩
  comes row member _ := ⟨row, uploads ▸ member, rfl, rfl⟩
  scored other _ tick earlier written := by
    simp only [scoredAt, scores, updateNsfwScore] at written ⊢
    by_cases same : other = id
    · subst same
      rw [Function.update_self, Option.some.injEq] at written
      omega
    · rw [Function.update_of_ne same] at written ⊢
      exact ⟨written, rfl⟩

/-- The cell is told of one address, and keeps what it has on the others. -/
theorem lookup_of_stored_mark {id : Uuid} {uploaderIp : Option IpAddr} {score : ℚ}
    {recordedAt : Option Nat} {answer : Fetched Bool}
    (found : (state.advanceScan settings task id uploaderIp score (.storing ip recordedAt)).lookup
      settings client = some answer) :
    client = ip ∧ answer.value = true ∨ client ≠ ip ∧ state.lookup settings client = some answer := by
  rcases Entries.lookup_update found with ⟨same, rfl⟩ | held
  · exact .inl ⟨same, rfl⟩
  · exact .inr held

theorem coherent_of_stored_mark {id : Uuid} {uploaderIp : Option IpAddr} {score : ℚ}
    {recordedAt : Option Nat} (coherent : state.Coherent settings)
    (stands : state.tasks task = .scan id uploaderIp score (.storing ip recordedAt))
    (cleared : ∀ moment, recordedAt = some moment → state.Recent id moment →
      ∀ client, client ≠ ip → countedBy client ip →
        ∀ answer, state.lookup settings client = some answer → answer.value = true) :
    (state.advanceScan settings task id uploaderIp score (.storing ip recordedAt)).Coherent
      settings := by
  have ok := coherent.tasks task
  rw [stands] at ok
  obtain ⟨uploaded, held, scored⟩ := ok
  have table : TableStep state
      (state.advanceScan settings task id uploaderIp score (.storing ip recordedAt)) :=
    .of_same (le_refl _) rfl rfl rfl
  have step : SuspectStep settings state
      (state.advanceScan settings task id uploaderIp score (.storing ip recordedAt)) (some task) :=
    { tick := rfl
      table := table
      tasks := fun other different =>
        Function.update_of_ne (fun same => different (congrArg some same.symm)) ..
      writers := fun other different =>
        KeyedTtlCache.release_writer_other fun same => different (congrArg some same.symm)
      standing := by
        intro key markedAt marked
        obtain ⟨other, id', uploader', score', moment, marked, recent⟩ := marked
        by_cases acts : other = task
        · subst acts
          simp only [advanceScan, move, Function.update_self] at marked
          cases marked
          refine .inr ⟨rfl, held, fun client answer counted found => ?_⟩
          rcases lookup_of_stored_mark found with ⟨-, told⟩ | ⟨different, held⟩
          · exact told
          · exact cleared moment rfl recent client different counted answer held
        · simp only [advanceScan, move, Function.update_of_ne acts] at marked
          exact .inl ⟨other, id', uploader', score', moment, marked, recent⟩
      answers := by
        intro client answer found
        rcases lookup_of_stored_mark found with ⟨-, told⟩ | ⟨-, held⟩
        · exact .inr fun _ => told
        · exact .inl held }
  refine step.coherent coherent (lands_of_stage rfl ⟨uploaded, ?_⟩)
  exact table.scoredBy rfl uploaded scored

theorem coherent_of_advanceScan {id : Uuid} {uploaderIp : Option IpAddr} {score : ℚ}
    {stage : ScanStage} (coherent : state.Coherent settings)
    (stands : state.tasks task = .scan id uploaderIp score stage)
    (ready : state.ready (.scan id uploaderIp score stage))
    (cleared : state.NoneCleared settings (.advance task)) :
    (state.advanceScan settings task id uploaderIp score stage).Coherent settings := by
  have ok := coherent.tasks task
  rw [stands] at ok
  cases stage with
  | classified =>
      refine @coherent_of_recorded _ _ _ _ _ _
        (state.advanceScan settings task id uploaderIp score .classified) (some state.tick) coherent stands
        (table_updateNsfwScore state id score rfl rfl rfl rfl) rfl rfl rfl rfl ?_
      intro moment recorded
      cases recorded
      exact ⟨Nat.lt_succ_self _, Function.update_self ..⟩
  | recorded ip recordedAt =>
      have free : state.cell.writer = none := ready.1
      have table : TableStep state
          (state.advanceScan settings task id uploaderIp score (.recorded ip recordedAt)) :=
        .of_same (le_refl _) rfl rfl rfl
      exact coherent_of_quiet coherent trivial (writers_of_free free _) (fun _ _ found => found)
        ⟨ok.1, rfl, table.scoredBy rfl ok.1 ok.2⟩
  | storing ip recordedAt =>
      apply coherent_of_stored_mark coherent stands
      rintro moment rfl
      exact cleared _ _ _ _ _ stands
  | marked ip recordedAt markedAt => exact coherent
  | ended => exact coherent

theorem coherent_of_failUpdate (coherent : state.Coherent settings) :
    (state.failUpdate settings task).Coherent settings := by
  unfold failUpdate
  split
  · rename_i stands
    exact coherent_of_recorded coherent stands (.of_same (le_refl _) rfl rfl rfl) rfl rfl rfl rfl
      nofun
  · exact coherent

/-! ### Updates by others -/

/-- A step of no task that keeps the cell. -/
theorem coherent_of_table (coherent : before.Coherent settings) (table : TableStep before after)
    (tick : after.tick = before.tick + 1) (tasks : after.tasks = before.tasks)
    (cell : after.cell = before.cell) : after.Coherent settings := by
  have step : SuspectStep settings before after none :=
    { tick := tick
      table := table
      tasks := fun task _ => by rw [tasks]
      writers := fun task _ holds => by rwa [holdsWriter, cell]
      standing := fun ip markedAt stands => .inl (standing_of_kept coherent table
        (fun _ _ _ _ _ _ _ marked => by rwa [tasks] at marked) stands)
      answers := by
        intro client answer found
        rw [lookup, cell] at found
        exact .inl (Entries.lookup_of_later table.clock found) }
  exact step.coherent coherent (fun _ impossible => nomatch impossible)

theorem table_insertUploadRow {row : Upload} {table : Uploads}
    (inserted : state.uploads.insertUploadRow row = some table) (uploads : after.uploads = table)
    (clock : after.clock = state.clock) (scoredAt : after.scoredAt = state.scoredAt)
    (scores : after.scores = Function.update state.scores row.id none) : TableStep state after := by
  obtain ⟨rows, fresh⟩ := Uploads.insertUploadRow_rows inserted
  constructor
  · exact clock.ge
  · intro other member
    refine ⟨other, ?_, rfl, rfl⟩
    rw [uploads, rows]
    exact List.mem_cons_of_mem row member
  · intro other member key
    rw [uploads, rows] at member
    rcases List.mem_cons.mp member with rfl | already
    · exact absurd key fresh
    · exact ⟨other, already, rfl, rfl⟩
  · intro id key tick _ written
    have different : id ≠ row.id := by
      rintro rfl
      exact fresh key
    rw [scores, Function.update_of_ne different]
    exact ⟨scoredAt ▸ written, rfl⟩

theorem table_setDeleted {id : Uuid} {now : Int}
    (uploads : after.uploads = state.uploads.setDeleted id now) (clock : after.clock = state.clock)
    (scores : after.scores = state.scores) (scoredAt : after.scoredAt = state.scoredAt) :
    TableStep state after where
  clock := clock.ge
  keeps row member := by
    rw [uploads]
    by_cases same : row.id = id
    · exact ⟨_, Uploads.mem_setDeleted.mpr (.inr ⟨row, member, same, rfl⟩), rfl, rfl⟩
    · exact ⟨row, Uploads.mem_setDeleted.mpr (.inl ⟨member, same⟩), rfl, rfl⟩
  comes row member _ := by
    rw [uploads] at member
    rcases Uploads.mem_setDeleted.mp member with ⟨already, -⟩ | ⟨earlier, already, -, rfl⟩
    · exact ⟨row, already, rfl, rfl⟩
    · exact ⟨earlier, already, rfl, rfl⟩
  scored other _ tick _ written := ⟨scoredAt ▸ written, by rw [scores]⟩

/-! ## Runs -/

theorem next_check {began : Nat} {stage : CheckStage Bool}
    (stands : state.tasks task = .check ip began stage) :
    (suspectSystem settings).next state (.advance task) =
      state.advanceCheck settings task ip began stage := by
  simp only [suspectSystem, stands]

theorem next_scan {id : Uuid} {uploaderIp : Option IpAddr} {score : ℚ} {stage : ScanStage}
    (stands : state.tasks task = .scan id uploaderIp score stage) :
    (suspectSystem settings).next state (.advance task) =
      state.advanceScan settings task id uploaderIp score stage := by
  simp only [suspectSystem, stands]

theorem coherent_step {event : SuspectEvent} (coherent : state.Coherent settings)
    (enabled : (suspectSystem settings).enabled state event)
    (cleared : state.NoneCleared settings event) :
    ((suspectSystem settings).next state event).Coherent settings := by
  cases event with
  | beginCheck task ip =>
      exact coherent_of_quiet coherent trivial (fun _ _ holds => holds) (fun _ _ found => found)
        ⟨Nat.lt_succ_self _, trivial⟩
  | beginScan task id uploaderIp score =>
      exact coherent_of_quiet coherent trivial (fun _ _ holds => holds) (fun _ _ found => found)
        ⟨enabled.2, trivial⟩
  | advance task =>
      have ready : state.ready (state.tasks task) := enabled
      cases stands : state.tasks task with
      | idle => simpa only [suspectSystem, stands] using coherent
      | abandoned => simpa only [suspectSystem, stands] using coherent
      | check ip began stage =>
          rw [stands] at ready
          rw [next_check stands]
          exact coherent_of_advanceCheck coherent stands ready
      | scan id uploaderIp score stage =>
          rw [stands] at ready
          rw [next_scan stands]
          exact coherent_of_advanceScan coherent stands ready cleared
  | failUpdate task => exact coherent_of_failUpdate coherent
  | abandon task =>
      exact coherent_of_quiet coherent trivial (fun _ => KeyedTtlCache.release_writer_other)
        (fun _ _ found => found) trivial
  | elapse duration =>
      exact coherent_of_table coherent (.of_same (le_add_of_nonneg_right enabled) rfl rfl rfl) rfl
        rfl rfl
  | insertUploadRow row =>
      obtain ⟨table, inserted⟩ := Option.isSome_iff_exists.mp enabled.2
      refine coherent_of_table coherent (table_insertUploadRow inserted ?_ rfl rfl rfl) rfl rfl rfl
      simp only [suspectSystem, inserted, Option.getD_some]
  | deleteUpload id =>
      exact coherent_of_table coherent (table_setDeleted rfl rfl rfl rfl) rfl rfl rfl
  | rescore id score =>
      exact coherent_of_table coherent (table_updateNsfwScore state id score rfl rfl rfl rfl) rfl rfl
        rfl

theorem coherent_initial (uploads : Uploads) (scores : Scores) (clock : ℚ) :
    (initial uploads scores clock).Coherent settings where
  tasks _ := trivial
  answers _ _ found := nomatch found

theorem coherent_of_run {uploads : Uploads} {scores : Scores} {clock : ℚ}
    {events : List SuspectEvent}
    (run : ((suspectSystem settings).restrict (NoneCleared settings)).Run
      (initial uploads scores clock) events state) : state.Coherent settings :=
  run.invariant (coherent_initial uploads scores clock) fun _ _ coherent enabled =>
    coherent_step coherent enabled.1 enabled.2

theorem Coherent.suspectAtOnce (coherent : state.Coherent settings) : state.SuspectAtOnce := by
  intro ip markedAt stands client counted task began answer checked first
  have ok := coherent.tasks task
  rw [checked] at ok
  exact ok.2 ip markedAt stands counted first

end SuspectState

end Filehost.Cache
