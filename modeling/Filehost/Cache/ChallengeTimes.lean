import Filehost.Cache.ChallengeCache

namespace Filehost.Cache

open Filehost.Data Filehost.Ip

/-! # How long a solved challenge counts -/

namespace ChallengeState

variable {settings : ChallengeSettings} {delay : ℚ} {state before after : ChallengeState}
  {actor : Option Nat} {task : Nat} {ip : IpAddr} {stage : ChallengeTask}

theorem ReturnedMark.storedMark {upsertedAt returnedAt : Moment}
    (returned : state.ReturnedMark ip upsertedAt returnedAt) : state.StoredMark ip upsertedAt := by
  obtain ⟨task, stands⟩ := returned
  exact ⟨task, stands.stored⟩

/-- What one step can do: `actor` alone moves, it takes no guard from another task,
it writes rows that expire a lifetime from now, and it tells the cell of a
verification only under the write lock. -/
structure ChallengeStep (settings : ChallengeSettings) (delay : ℚ) (before after : ChallengeState)
    (actor : Option Nat) : Prop where
  tick : after.now.tick = before.now.tick + 1
  clock : before.now.clock ≤ after.now.clock
  tasks : ∀ task, actor ≠ some task → after.tasks task = before.tasks task
  writers : ∀ task, actor ≠ some task → before.holdsWriter task → after.holdsWriter task
  upserts : ∀ bytes last, after.upserts bytes = some last →
    before.upserts bytes = some last ∧ after.rows bytes = before.rows bytes ∨
      last = before.now ∧
        after.rows bytes = some (last.clock + settings.challengeVerifiedTtlSeconds)
  keeps : ∀ bytes last, before.upserts bytes = some last →
    after.upserts bytes = some last ∨ after.upserts bytes = some before.now
  stores : ∀ ip upsertedAt, after.StoredMark ip upsertedAt → before.StoredMark ip upsertedAt ∨
    before.cell.writer = actor ∧
      ∀ entry, after.cell.entries ip = some entry → entry.value.value = true
  returns : ∀ ip upsertedAt returnedAt, after.ReturnedMark ip upsertedAt returnedAt →
    before.ReturnedMark ip upsertedAt returnedAt ∨ returnedAt = before.now
  entries : ∀ ip entry, after.cell.entries ip = some entry →
    before.cell.entries ip = some entry ∨ after.EntryOk settings delay ip entry

/-! ## What other tasks and entries keep -/

theorem lifetime_nonneg (settings : ChallengeSettings) :
    0 ≤ (settings.challengeVerifiedTtlSeconds : ℚ) := Nat.cast_nonneg _

theorem ChallengeStep.entryOk (step : ChallengeStep settings delay before after actor)
    (nonneg : 0 ≤ delay) {entry : Entry (Fetched Bool)}
    (ok : before.EntryOk settings delay ip entry) (found : after.cell.entries ip = some entry) :
    after.EntryOk settings delay ip entry where
  past := ok.past.trans step.clock
  positive verified last written := by
    have lifetime := lifetime_nonneg settings
    rcases step.upserts _ last written with ⟨already, -⟩ | ⟨rfl, -⟩
    · exact ok.positive verified last already
    · have past := ok.past
      linarith
  negative refuted upsertedAt stored := by
    rcases step.stores ip upsertedAt stored with already | ⟨-, told⟩
    · exact ok.negative refuted upsertedAt already
    · rw [told entry found] at refuted
      contradiction

theorem ChallengeStep.fetchedOk (step : ChallengeStep settings delay before after actor)
    (locked : before.cell.writer ≠ actor) {began readAt : Moment} {verified : Bool}
    (earlier : began.tick < before.now.tick)
    (ok : before.FetchedOk settings ip began verified readAt) :
    after.FetchedOk settings ip began verified readAt where
  after := ok.after
  past := ok.past.trans step.clock
  positive positive last written first := by
    rcases step.upserts _ last written with ⟨already, -⟩ | ⟨rfl, -⟩
    · exact ok.positive positive last already first
    · omega
  bounded positive last written := by
    rcases step.upserts _ last written with ⟨already, -⟩ | ⟨rfl, -⟩
    · exact ok.bounded positive last already
    · have lifetime := lifetime_nonneg settings
      have past := ok.past
      linarith
  negative refuted upsertedAt stored := by
    rcases step.stores ip upsertedAt stored with already | ⟨owner, -⟩
    · exact ok.negative refuted upsertedAt already
    · exact absurd owner locked

theorem ChallengeStep.answeredOk (step : ChallengeStep settings delay before after actor)
    {began answeredAt : Moment} {verified : Bool} (earlier : began.tick < before.now.tick)
    (ok : before.AnsweredOk settings delay ip began verified answeredAt) :
    after.AnsweredOk settings delay ip began verified answeredAt where
  positive positive last written first := by
    rcases step.upserts _ last written with ⟨already, -⟩ | ⟨rfl, -⟩
    · exact ok.positive positive last already first
    · omega
  negative refuted upsertedAt returnedAt returned first := by
    rcases step.returns ip upsertedAt returnedAt returned with already | rfl
    · exact ok.negative refuted upsertedAt returnedAt already first
    · omega

theorem ChallengeStep.marked (step : ChallengeStep settings delay before after actor)
    (timed : before.Timed settings delay) {upsertedAt : Moment}
    (marked : before.Marked ip upsertedAt) : after.Marked ip upsertedAt := by
  obtain ⟨last, written, ordered⟩ := marked
  rcases step.keeps _ last written with same | later
  · exact ⟨last, same, ordered⟩
  · exact ⟨before.now, later, ordered.trans (timed.rows _ last written).1⟩

theorem ChallengeStep.taskOk_other (step : ChallengeStep settings delay before after actor)
    (timed : before.Timed settings delay) (other : actor ≠ some task)
    (ok : before.TaskOk settings delay task stage) : after.TaskOk settings delay task stage := by
  have later := step.tick
  have locked : before.holdsWriter task → before.cell.writer ≠ actor :=
    fun held owned => other (owned.symm.trans held)
  cases stage with
  | idle => trivial
  | abandoned => trivial
  | check ip began stage =>
      obtain ⟨earlier, past, ok⟩ := ok
      refine ⟨by omega, past.trans step.clock, ?_⟩
      cases stage with
      | started => trivial
      | reading => trivial
      | missed => trivial
      | writing => exact step.writers task other ok
      | fetching => exact step.writers task other ok
      | fetched fresh =>
          exact ⟨step.writers task other ok.1, step.fetchedOk (locked ok.1) earlier ok.2⟩
      | retaining fresh =>
          exact ⟨step.writers task other ok.1, step.fetchedOk (locked ok.1) earlier ok.2⟩
      | answered answer => exact step.answeredOk earlier ok
  | mark ip stage =>
      cases stage with
      | arrived => trivial
      | upserted upsertedAt => exact step.marked timed ok
      | storing upsertedAt => exact ⟨step.writers task other ok.1, step.marked timed ok.2⟩
      | stored upsertedAt => exact step.marked timed ok
      | returned upsertedAt returnedAt => exact step.marked timed ok

theorem ChallengeStep.timed (step : ChallengeStep settings delay before after actor)
    (nonneg : 0 ≤ delay) (timed : before.Timed settings delay)
    (lands : ∀ task, actor = some task → after.TaskOk settings delay task (after.tasks task)) :
    after.Timed settings delay where
  tasks := by
    intro task
    by_cases acts : actor = some task
    · exact lands task acts
    · rw [step.tasks task acts]
      exact step.taskOk_other timed acts (timed.tasks task)
  entries := by
    intro ip entry found
    rcases step.entries ip entry found with held | ok
    · exact step.entryOk nonneg (timed.entries ip entry held) found
    · exact ok
  rows := by
    intro bytes last written
    rcases step.upserts bytes last written with ⟨already, same⟩ | ⟨rfl, row⟩
    · obtain ⟨past, row⟩ := timed.rows bytes last already
      exact ⟨past.trans step.clock, same.trans row⟩
    · exact ⟨step.clock, row⟩

/-! ## The steps -/

theorem stands_of_update (tasks : after.tasks = Function.update before.tasks task stage)
    (other : Nat) : other = task ∧ after.tasks other = stage ∨
      after.tasks other = before.tasks other := by
  rw [tasks]
  by_cases acts : other = task
  · exact .inl ⟨acts, acts ▸ Function.update_self ..⟩
  · exact .inr (Function.update_of_ne acts ..)

theorem stored_of_update (tasks : after.tasks = Function.update before.tasks task stage)
    {upsertedAt : Moment} (stored : after.StoredMark ip upsertedAt) :
    before.StoredMark ip upsertedAt ∨ stage.Stored ip upsertedAt := by
  obtain ⟨other, stored⟩ := stored
  rcases stands_of_update tasks other with ⟨-, moved⟩ | kept
  · exact .inr (moved ▸ stored)
  · exact .inl ⟨other, kept ▸ stored⟩

theorem returned_of_update (tasks : after.tasks = Function.update before.tasks task stage)
    {upsertedAt returnedAt : Moment} (returned : after.ReturnedMark ip upsertedAt returnedAt) :
    before.ReturnedMark ip upsertedAt returnedAt ∨ stage.Returned ip upsertedAt returnedAt := by
  obtain ⟨other, returned⟩ := returned
  rcases stands_of_update tasks other with ⟨-, moved⟩ | kept
  · exact .inr (moved ▸ returned)
  · exact .inl ⟨other, kept ▸ returned⟩

theorem lands_of_stage (tasks : after.tasks = Function.update before.tasks task stage)
    (ok : after.TaskOk settings delay task stage) :
    ∀ other, some task = some other → after.TaskOk settings delay other (after.tasks other) := by
  intro other same
  cases same
  rw [tasks, Function.update_self]
  exact ok

theorem step_of_update (now : after.now = before.now.next)
    (tasks : after.tasks = Function.update before.tasks task stage)
    (writers : ∀ other, other ≠ task → before.holdsWriter other → after.holdsWriter other)
    (upserts : ∀ bytes last, after.upserts bytes = some last →
      before.upserts bytes = some last ∧ after.rows bytes = before.rows bytes ∨
        last = before.now ∧
          after.rows bytes = some (last.clock + settings.challengeVerifiedTtlSeconds))
    (keeps : ∀ bytes last, before.upserts bytes = some last →
      after.upserts bytes = some last ∨ after.upserts bytes = some before.now)
    (stores : ∀ ip upsertedAt, stage.Stored ip upsertedAt → before.StoredMark ip upsertedAt ∨
      before.holdsWriter task ∧
        ∀ entry, after.cell.entries ip = some entry → entry.value.value = true)
    (returns : ∀ ip upsertedAt returnedAt, stage.Returned ip upsertedAt returnedAt →
      returnedAt = before.now)
    (entries : ∀ ip entry, after.cell.entries ip = some entry →
      before.cell.entries ip = some entry ∨ after.EntryOk settings delay ip entry) :
    ChallengeStep settings delay before after (some task) where
  tick := congrArg Moment.tick now
  clock := (congrArg Moment.clock now).ge
  tasks := by
    intro other different
    rw [tasks, Function.update_of_ne (fun same => different (congrArg some same.symm))]
  writers := fun other different =>
    writers other (fun same => different (congrArg some same.symm))
  upserts := upserts
  keeps := keeps
  stores := by
    intro ip upsertedAt stored
    rcases stored_of_update tasks stored with already | moved
    · exact .inl already
    · exact stores ip upsertedAt moved
  returns := by
    intro ip upsertedAt returnedAt returned
    rcases returned_of_update tasks returned with already | moved
    · exact .inl already
    · exact .inr (returns ip upsertedAt returnedAt moved)
  entries := entries

/-- A step that writes no row and does not tell the cell of a verification. -/
theorem step_of_quiet {cell : Cell IpAddr Bool} (quiet : ∀ ip upsertedAt, ¬stage.Stored ip upsertedAt)
    (writers : ∀ other, other ≠ task → before.holdsWriter other → cell.writer = some other)
    (entries : ∀ ip entry, cell.entries ip = some entry → before.cell.entries ip = some entry ∨
      (before.move task stage cell).EntryOk settings delay ip entry) :
    ChallengeStep settings delay before (before.move task stage cell) (some task) :=
  step_of_update rfl rfl writers (fun _ _ written => .inl ⟨written, rfl⟩)
    (fun _ _ written => .inl written) (fun ip upsertedAt stored => absurd stored (quiet ip upsertedAt))
    (fun ip upsertedAt _ returned => absurd returned.stored (quiet ip upsertedAt)) entries

theorem step_of_check {cell : Cell IpAddr Bool} {began : Moment} {stage : VerifyStage}
    (writers : ∀ other, other ≠ task → before.holdsWriter other → cell.writer = some other)
    (entries : ∀ key entry, cell.entries key = some entry → before.cell.entries key = some entry ∨
      (before.move task (.check ip began stage) cell).EntryOk settings delay key entry) :
    ChallengeStep settings delay before (before.move task (.check ip began stage) cell) (some task) :=
  step_of_quiet (fun _ _ stored => stored) writers entries

theorem timed_of_quiet {cell : Cell IpAddr Bool} (nonneg : 0 ≤ delay)
    (timed : state.Timed settings delay) (quiet : ∀ ip upsertedAt, ¬stage.Stored ip upsertedAt)
    (writers : ∀ other, other ≠ task → state.holdsWriter other → cell.writer = some other)
    (entries : ∀ ip entry, cell.entries ip = some entry → state.cell.entries ip = some entry)
    (ok : (state.move task stage cell).TaskOk settings delay task stage) :
    (state.move task stage cell).Timed settings delay :=
  (step_of_quiet quiet writers fun ip entry found => .inl (entries ip entry found)).timed nonneg timed
    (lands_of_stage rfl ok)

/-- Marks that a task's move to this stage does not add. -/
theorem pastMarks_of_quiet {cell : Cell IpAddr Bool} {time : ℚ}
    (quiet : ∀ ip upsertedAt, ¬stage.Stored ip upsertedAt)
    (past : state.PastMarks settings ip time) :
    (state.move task stage cell).PastMarks settings ip time := by
  intro upsertedAt stored
  rcases stored_of_update rfl stored with already | moved
  · exact past upsertedAt already
  · exact absurd moved (quiet ip upsertedAt)

/-- A young entry answers within the bounds. -/
theorem answeredOk_of_hit {cell : Cell IpAddr Bool} {began : Moment} {answer : Fetched Bool}
    (timed : state.Timed settings delay) (past : began.clock ≤ state.now.clock)
    (found : state.cell.entries.lookup settings.ttl state.now.clock ip = some answer) :
    (state.move task (.check ip began (.answered (answer.value, state.now))) cell).AnsweredOk settings
      delay ip began answer.value state.now := by
  obtain ⟨entry, present, rfl, young⟩ := Entries.lookup_eq_some found
  have ok := timed.entries ip entry present
  have age : state.now.clock - entry.fetchedAt < settings.ttl := (le_max_left _ _).trans_lt young
  constructor
  · intro verified last written _
    have bound := ok.positive verified last written
    linarith
  · intro refuted upsertedAt returnedAt returned _
    have lasted : (state.move task (.check ip began (.answered (entry.value.value, state.now)))
        cell).PastMarks settings ip entry.fetchedAt :=
      pastMarks_of_quiet (fun _ _ stored => stored) (ok.negative refuted)
    exact (lasted upsertedAt returned.storedMark).trans ok.past

theorem Timed.marked_of_stored (timed : state.Timed settings delay) {upsertedAt : Moment}
    (stored : state.StoredMark ip upsertedAt) : state.Marked ip upsertedAt := by
  obtain ⟨task, stored⟩ := stored
  have ok := timed.tasks task
  cases stands : state.tasks task with
  | mark other stage =>
      rw [stands] at ok stored
      cases stage with
      | stored =>
          obtain ⟨rfl, rfl⟩ := stored
          exact ok
      | returned =>
          obtain ⟨rfl, rfl⟩ := stored
          exact ok
      | _ => exact stored.elim
  | _ =>
      rw [stands] at stored
      exact stored.elim

/-- A read of the row answers within the bounds. -/
theorem fetchedOk_of_read {cell : Cell IpAddr Bool} {began : Moment}
    (timed : state.Timed settings delay) (past : began.clock ≤ state.now.clock) :
    (state.move task (.check ip began (.fetched
        (isIpChallengeVerified state.rows state.now.clock ip, state.now))) cell).FetchedOk settings ip
      began (isIpChallengeVerified state.rows state.now.clock ip) state.now := by
  have lasts : isIpChallengeVerified state.rows state.now.clock ip = true → ∀ last,
      state.upserts (toDbBytes ip) = some last →
        state.now.clock < last.clock + settings.challengeVerifiedTtlSeconds := by
    intro verified last written
    rw [isIpChallengeVerified, (timed.rows _ last written).2] at verified
    exact of_decide_eq_true verified
  refine ⟨past, le_refl _, fun verified last written _ => lasts verified last written,
    fun verified last written => (lasts verified last written).le, fun refuted => ?_⟩
  refine pastMarks_of_quiet (fun _ _ stored => stored) fun upsertedAt stored => ?_
  obtain ⟨last, written, ordered⟩ := timed.marked_of_stored stored
  rw [isIpChallengeVerified, (timed.rows _ last written).2] at refuted
  have expired := of_decide_eq_false refuted
  linarith

section Checks

variable {cell : Cell IpAddr Bool} {began readAt : Moment} {verified : Bool} {stage : VerifyStage}

theorem FetchedOk.of_move (fetched : state.FetchedOk settings ip began verified readAt) :
    (state.move task (.check ip began stage) cell).FetchedOk settings ip began verified readAt :=
  ⟨fetched.after, fetched.past, fetched.positive, fetched.bounded, fun refuted =>
    pastMarks_of_quiet (fun _ _ stored => stored) (fetched.negative refuted)⟩

/-- What was read may be stored for as long as the delay allows. -/
theorem FetchedOk.entryOk (fetched : state.FetchedOk settings ip began verified readAt)
    (prompt : state.now.clock ≤ readAt.clock + delay) :
    (state.move task (.check ip began stage) cell).EntryOk settings delay ip
      ⟨state.now.clock, ⟨verified, readAt.tick⟩⟩ := by
  refine ⟨le_refl _, fun positive last written => ?_, fun refuted upsertedAt stored => ?_⟩
  · have bound := fetched.bounded positive last written
    dsimp only
    linarith
  · have lasted : (state.move task (.check ip began stage) cell).PastMarks settings ip readAt.clock :=
      pastMarks_of_quiet (fun _ _ stored => stored) (fetched.negative refuted)
    exact (lasted upsertedAt stored).trans fetched.past

theorem FetchedOk.answeredOk (nonneg : 0 ≤ delay)
    (fetched : state.FetchedOk settings ip began verified readAt) :
    (state.move task (.check ip began stage) cell).AnsweredOk settings delay ip began verified
      state.now := by
  constructor
  · intro positive last written first
    have bound := fetched.positive positive last written first
    have lifetime := settings.ttlNonneg
    have started := fetched.after
    linarith
  · intro refuted upsertedAt returnedAt returned _
    have lasted : (state.move task (.check ip began stage) cell).PastMarks settings ip readAt.clock :=
      pastMarks_of_quiet (fun _ _ stored => stored) (fetched.negative refuted)
    exact (lasted upsertedAt returned.storedMark).trans fetched.past

theorem step_of_advanceCheck (timed : state.Timed settings delay)
    (stands : state.tasks task = .check ip began stage)
    (ready : state.ready (.check ip began stage))
    (prompt : ∀ fresh, stage = .fetched fresh → state.now.clock ≤ fresh.2.clock + delay) :
    ChallengeStep settings delay state (state.advanceCheck settings task ip began stage)
      (some task) := by
  unfold advanceCheck
  split
  · exact step_of_check (fun _ _ holds => holds) (fun _ _ held => .inl held)
  · refine step_of_check (fun _ => KeyedTtlCache.getOrRefresh_writer_other fun missed => ?_)
      fun key entry found => ?_
    · subst missed
      exact (ready.2.2 rfl).1
    · rcases KeyedTtlCache.getOrRefresh_entries found with held | ⟨fresh, rfl, rfl, rfl⟩
      · exact .inl held
      · have ok := timed.tasks task
        rw [stands] at ok
        exact .inr (ok.2.2.2.entryOk (prompt fresh rfl))

theorem timed_of_advanceCheck (nonneg : 0 ≤ delay) (timed : state.Timed settings delay)
    (stands : state.tasks task = .check ip began stage)
    (ready : state.ready (.check ip began stage))
    (prompt : ∀ fresh, stage = .fetched fresh → state.now.clock ≤ fresh.2.clock + delay) :
    (state.advanceCheck settings task ip began stage).Timed settings delay := by
  have ok := timed.tasks task
  rw [stands] at ok
  obtain ⟨earlier, past, ok⟩ := ok
  have step := step_of_advanceCheck timed stands ready prompt
  have lands : ∀ {stage cell}, (state.move task (.check ip began stage) cell).StageOk settings delay
      task ip began stage → ∀ other, some task = some other →
        (state.move task (.check ip began stage) cell).TaskOk settings delay other
          ((state.move task (.check ip began stage) cell).tasks other) :=
    fun ok => lands_of_stage rfl ⟨Nat.lt_succ_of_lt earlier, past, ok⟩
  cases stage with
  | started => exact step.timed nonneg timed (lands trivial)
  | reading =>
      simp only [advanceCheck, KeyedTtlCache.getOrRefresh] at step ⊢
      cases found : state.cell.entries.lookup settings.ttl state.now.clock ip with
      | some answer =>
          rw [found] at step
          exact step.timed nonneg timed (lands (answeredOk_of_hit timed past found))
      | none =>
          rw [found] at step
          exact step.timed nonneg timed (lands trivial)
  | missed => exact step.timed nonneg timed (lands rfl)
  | writing =>
      simp only [advanceCheck, KeyedTtlCache.getOrRefresh] at step ⊢
      cases found : state.cell.entries.lookup settings.ttl state.now.clock ip with
      | some answer =>
          rw [found] at step
          exact step.timed nonneg timed (lands (answeredOk_of_hit timed past found))
      | none =>
          rw [found] at step
          exact step.timed nonneg timed (lands ok)
  | fetching startedAt => exact step.timed nonneg timed (lands ⟨ok, fetchedOk_of_read timed past⟩)
  | fetched fresh => exact step.timed nonneg timed (lands ⟨ok.1, ok.2.of_move⟩)
  | retaining fresh => exact step.timed nonneg timed (lands (ok.2.answeredOk nonneg))
  | answered answer => cases ready.1

end Checks

theorem timed_of_upsert (nonneg : 0 ≤ delay) (timed : state.Timed settings delay) :
    (state.advanceMark settings task ip .arrived).Timed settings delay := by
  have step : ChallengeStep settings delay state (state.advanceMark settings task ip .arrived)
      (some task) := by
    refine step_of_update rfl rfl (fun _ _ holds => holds) (fun bytes last written => ?_)
      (fun bytes last written => ?_) (fun _ _ stored => stored.elim)
      (fun _ _ _ returned => returned.elim) (fun _ _ held => .inl held)
    · simp only [advanceMark, upsertChallengeVerifiedIp] at written ⊢
      by_cases same : bytes = toDbBytes ip
      · subst same
        rw [Function.update_self] at written ⊢
        cases written
        exact .inr ⟨rfl, rfl⟩
      · rw [Function.update_of_ne same] at written ⊢
        exact .inl ⟨written, rfl⟩
    · simp only [advanceMark]
      by_cases same : bytes = toDbBytes ip
      · subst same
        rw [Function.update_self]
        exact .inr rfl
      · rw [Function.update_of_ne same]
        exact .inl written
  refine step.timed nonneg timed (lands_of_stage rfl ⟨state.now, ?_, le_refl _⟩)
  exact Function.update_self ..

theorem timed_of_stored_mark {upsertedAt : Moment} (nonneg : 0 ≤ delay)
    (timed : state.Timed settings delay)
    (stands : state.tasks task = .mark ip (.storing upsertedAt))
    (prompt : state.now.clock ≤ upsertedAt.clock + delay) :
    (state.advanceMark settings task ip (.storing upsertedAt)).Timed settings delay := by
  have ok := timed.tasks task
  rw [stands] at ok
  obtain ⟨held, last, written, ordered⟩ := ok
  have step : ChallengeStep settings delay state
      (state.advanceMark settings task ip (.storing upsertedAt)) (some task) := by
    refine step_of_update rfl rfl (fun _ => KeyedTtlCache.release_writer_other)
      (fun _ _ written => .inl ⟨written, rfl⟩) (fun _ _ written => .inl written)
      (fun key moment stored => ?_) (fun _ _ _ returned => returned.elim) (fun key entry found => ?_)
    · obtain ⟨rfl, rfl⟩ := stored
      refine .inr ⟨held, fun entry found => ?_⟩
      have told : Function.update state.cell.entries ip
          (some ⟨state.now.clock, ⟨true, upsertedAt.tick⟩⟩) ip = some entry := found
      rw [Function.update_self, Option.some.injEq] at told
      rw [← told]
    · rcases Entries.update_eq_some found with ⟨rfl, rfl⟩ | held
      · refine .inr ⟨le_refl _, fun _ other again => ?_, nofun⟩
        cases written.symm.trans again
        have lifetime := lifetime_nonneg settings
        dsimp only
        linarith
      · exact .inl held
  exact step.timed nonneg timed (lands_of_stage rfl ⟨last, written, ordered⟩)

theorem timed_of_returned_mark {upsertedAt : Moment} (nonneg : 0 ≤ delay)
    (timed : state.Timed settings delay)
    (stands : state.tasks task = .mark ip (.stored upsertedAt)) :
    (state.advanceMark settings task ip (.stored upsertedAt)).Timed settings delay := by
  have ok := timed.tasks task
  rw [stands] at ok
  have step : ChallengeStep settings delay state
      (state.advanceMark settings task ip (.stored upsertedAt)) (some task) := by
    refine step_of_update rfl rfl (fun _ _ holds => holds)
      (fun _ _ written => .inl ⟨written, rfl⟩) (fun _ _ written => .inl written)
      (fun key moment stored => .inl ⟨task, ?_⟩) (fun key moment response returned => ?_)
      (fun _ _ held => .inl held)
    · rw [stands]
      exact stored
    · exact returned.2.2.symm
  exact step.timed nonneg timed (lands_of_stage rfl ok)

theorem timed_of_advanceMark {stage : MarkStage} (nonneg : 0 ≤ delay)
    (timed : state.Timed settings delay) (stands : state.tasks task = .mark ip stage)
    (ready : state.ready (.mark ip stage))
    (prompt : ∀ upsertedAt, stage = .storing upsertedAt →
      state.now.clock ≤ upsertedAt.clock + delay) :
    (state.advanceMark settings task ip stage).Timed settings delay := by
  have ok := timed.tasks task
  rw [stands] at ok
  cases stage with
  | arrived => exact timed_of_upsert nonneg timed
  | upserted upsertedAt =>
      exact timed_of_quiet nonneg timed (fun _ _ stored => stored)
        (fun _ _ holds => nomatch (ready.2.2 rfl).1.symm.trans holds) (fun _ _ held => held) ⟨rfl, ok⟩
  | storing upsertedAt => exact timed_of_stored_mark nonneg timed stands (prompt upsertedAt rfl)
  | stored upsertedAt => exact timed_of_returned_mark nonneg timed stands
  | returned upsertedAt returnedAt => exact timed

theorem timed_of_elapse {duration : ℚ} (nonneg : 0 ≤ delay) (timed : state.Timed settings delay)
    (forward : 0 ≤ duration) :
    ({ state with now := state.now.later duration } : ChallengeState).Timed settings delay := by
  have step : ChallengeStep settings delay state
      { state with now := state.now.later duration } none :=
    { tick := rfl
      clock := le_add_of_nonneg_right forward
      tasks := fun _ _ => rfl
      writers := fun _ _ holds => holds
      upserts := fun _ _ written => .inl ⟨written, rfl⟩
      keeps := fun _ _ written => .inl written
      stores := fun _ _ stored => .inl stored
      returns := fun _ _ _ returned => .inl returned
      entries := fun _ _ held => .inl held }
  exact step.timed nonneg timed (fun _ impossible => nomatch impossible)

theorem timed_step {event : ChallengeEvent} (nonneg : 0 ≤ delay) (timed : state.Timed settings delay)
    (enabled : (challengeSystem settings).enabled state event) (prompt : StoresWithin delay state event) :
    ((challengeSystem settings).next state event).Timed settings delay := by
  cases event with
  | beginCheck task ip =>
      exact timed_of_quiet nonneg timed (fun _ _ stored => stored) (fun _ _ holds => holds)
        (fun _ _ held => held) ⟨Nat.lt_succ_self _, le_refl _, trivial⟩
  | beginMark task ip =>
      exact timed_of_quiet nonneg timed (fun _ _ stored => stored) (fun _ _ holds => holds)
        (fun _ _ held => held) trivial
  | advance task =>
      simp only [challengeSystem, StoresWithin] at enabled prompt ⊢
      cases stands : state.tasks task with
      | idle => exact timed
      | abandoned => exact timed
      | check ip began stage =>
          rw [stands] at enabled prompt
          apply timed_of_advanceCheck nonneg timed stands enabled
          intro fresh same
          subst same
          exact prompt fresh.2 rfl
      | mark ip stage =>
          rw [stands] at enabled prompt
          apply timed_of_advanceMark nonneg timed stands enabled
          intro upsertedAt same
          subst same
          exact prompt upsertedAt rfl
  | abandon task =>
      exact timed_of_quiet nonneg timed (fun _ _ stored => stored)
        (fun _ => KeyedTtlCache.release_writer_other) (fun _ _ held => held) trivial
  | elapse duration => exact timed_of_elapse nonneg timed enabled

theorem timed_initial (rows : VerifiedRows) (clock : ℚ) :
    (initial rows clock).Timed settings delay where
  tasks _ := trivial
  entries _ _ found := nomatch found
  rows _ _ written := nomatch written

/-- A check that starts after a mark of its address has returned, and completes
before the row expires, is positive.  A check that starts after the row was last
written, by so much more than its lifetime, is negative. -/
theorem verified_for_lifetime {rows : VerifiedRows} {clock : ℚ} {events : List ChallengeEvent}
    (nonneg : 0 ≤ delay)
    (run : ((challengeSystem settings).restrict (StoresWithin delay)).Run (initial rows clock)
      events state)
    {checker : Nat} {began answeredAt : Moment} {verified : Bool}
    (checked : state.tasks checker = .check ip began (.answered (verified, answeredAt))) :
    (∀ marker upsertedAt returnedAt,
      state.tasks marker = .mark ip (.returned upsertedAt returnedAt) →
        returnedAt.tick < began.tick →
          answeredAt.clock < upsertedAt.clock + settings.challengeVerifiedTtlSeconds →
            verified = true) ∧
    ∀ lastUpsert, state.upserts (toDbBytes ip) = some lastUpsert → lastUpsert.tick < began.tick →
      lastUpsert.clock + settings.challengeVerifiedTtlSeconds + settings.ttl + delay ≤ began.clock →
        verified = false := by
  have timed := run.invariant (timed_initial rows clock) fun _ _ timed enabled =>
    timed_step nonneg timed enabled.1 enabled.2
  have ok := timed.tasks checker
  rw [checked] at ok
  obtain ⟨-, -, answered⟩ := ok
  constructor
  · intro marker upsertedAt returnedAt returned first early
    by_contra refuted
    have marked : state.ReturnedMark ip upsertedAt returnedAt := by
      refine ⟨marker, ?_⟩
      rw [returned]
      exact ⟨rfl, rfl, rfl⟩
    have late := answered.negative (Bool.eq_false_of_not_eq_true refuted) upsertedAt returnedAt
      marked first
    linarith
  · intro lastUpsert written first late
    by_contra positive
    have early := answered.positive (Bool.eq_true_of_not_eq_false positive) lastUpsert written first
    linarith

/-- Entries live five seconds, rows ten. -/
def shortSettings : ChallengeSettings := ⟨5, by decide, 10⟩

abbrev promptSystem : System ChallengeState ChallengeEvent :=
  (challengeSystem shortSettings).restrict (StoresWithin 0)

def visitor : Ipv4Addr := .new 203 0 113 7

def advances (task count : Nat) : List ChallengeEvent := List.replicate count (.advance task)

def lateCheckEvents : List ChallengeEvent :=
  [advances 2 7, [.beginCheck 2 (.v4 visitor), .elapse 15],
    advances 1 7, [.beginCheck 1 (.v4 visitor), .elapse 5],
    advances 0 4, [.beginMark 0 (.v4 visitor)]].flatten

def lateCheckState : ChallengeState :=
  promptSystem.after (.initial (fun _ => none) 0) lateCheckEvents

theorem lateCheck_verified :
    (∃ verified, lateCheckState.tasks 1 =
      .check (.v4 visitor) ⟨6, 5⟩ (.answered (verified, ⟨13, 5⟩)) ∧ verified = true) ∧
    ∃ verified, lateCheckState.tasks 2 =
      .check (.v4 visitor) ⟨15, 20⟩ (.answered (verified, ⟨22, 20⟩)) ∧ verified = false := by
  have run : promptSystem.Run (.initial (fun _ => none) 0) lateCheckEvents lateCheckState :=
    .of_admits (by decide +kernel)
  have early : lateCheckState.tasks 1 =
      .check (.v4 visitor) ⟨6, 5⟩ (.answered (true, ⟨13, 5⟩)) := by decide +kernel
  have late : lateCheckState.tasks 2 =
      .check (.v4 visitor) ⟨15, 20⟩ (.answered (false, ⟨22, 20⟩)) := by decide +kernel
  have returned : lateCheckState.tasks 0 = .mark (.v4 visitor) (.returned ⟨1, 0⟩ ⟨4, 0⟩) := by
    decide +kernel
  have written : lateCheckState.upserts (toDbBytes (.v4 visitor)) = some ⟨1, 0⟩ := by
    decide +kernel
  exact ⟨⟨true, early, (verified_for_lifetime (le_refl 0) run early).1 0 _ _ returned (by decide)
      (by decide +kernel)⟩,
    false, late, (verified_for_lifetime (le_refl 0) run late).2 _ written (by decide)
      (by decide +kernel)⟩

def twoSpellingEvents : List ChallengeEvent :=
  [advances 2 7, [.beginCheck 2 (.v4 visitor), .elapse 5],
    advances 1 4, [.beginMark 1 (.v6 visitor.toIpv6Mapped), .elapse 20],
    advances 0 4, [.beginMark 0 (.v4 visitor)]].flatten

def twoSpellingState : ChallengeState :=
  promptSystem.after (.initial (fun _ => none) 0) twoSpellingEvents

/-- The row of an address is written again under its other spelling.  The address is
then verified longer than its only call of `mark_ip_verified` accounts for. -/
theorem other_spelling_extends :
    promptSystem.Run (.initial (fun _ => none) 0) twoSpellingEvents twoSpellingState ∧
      twoSpellingEvents.countP (ChallengeEvent.marks (.v4 visitor)) = 1 ∧
      twoSpellingState.tasks 0 = .mark (.v4 visitor) (.returned ⟨1, 0⟩ ⟨4, 0⟩) ∧
      (0 : ℚ) + shortSettings.challengeVerifiedTtlSeconds + shortSettings.ttl + 0 ≤ 25 ∧
      twoSpellingState.tasks 2 = .check (.v4 visitor) ⟨12, 25⟩ (.answered (true, ⟨19, 25⟩)) :=
  ⟨.of_admits (by decide +kernel), by decide, by decide +kernel, by decide +kernel,
    by decide +kernel⟩

end ChallengeState

end Filehost.Cache
