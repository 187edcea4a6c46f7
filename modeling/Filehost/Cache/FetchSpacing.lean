import Filehost.Cache.TtlCache
import Mathlib.Tactic.Linarith

namespace Filehost.Cache

open Filehost.Data

/-! # One fetch for each lifetime

Every value a fetch stored is expired, or its key has an entry that is no older, until the map
is cleared.  A fetch starts under the write lock, after a look that found no such entry. -/

variable {κ : Type u} {ν : Type v} {ttl : ℚ} {history : List (Happening κ ν)}

/-! ## What a run remembers -/

/-- A fetch stored this, and nothing was cleared since. -/
def Unbroken (history : List (Happening κ ν)) (key : κ) (entry : Entry ν) : Prop :=
  ∃ newer startedAt older, history = newer ++ .fetched key startedAt entry :: older ∧
    Happening.invalidated ∉ newer

def Stored (history : List (Happening κ ν)) (key : κ) (entry : Entry ν) : Prop :=
  (∃ startedAt, .fetched key startedAt entry ∈ history) ∨ .set key entry ∈ history

/-- Of two fetches of a key with no clear between them, the second started when the first one's
value was past its lifetime. -/
def Spaced (ttl : ℚ) (history : List (Happening κ ν)) : Prop :=
  ∀ newer between older key firstStart first secondStart second,
    history = newer ++ .fetched key secondStart second ::
      (between ++ .fetched key firstStart first :: older) →
    Happening.invalidated ∉ between → first.fetchedAt + ttl ≤ secondStart

/-- Every cached value that was returned had been stored less than its lifetime before the
look that found it. -/
def HitsYoung (ttl : ℚ) (history : List (Happening κ ν)) : Prop :=
  ∀ newer older key entry lookedUpAt, history = newer ++ .hit key entry lookedUpAt :: older →
    lookedUpAt < entry.fetchedAt + ttl ∧ Stored older key entry

theorem unbroken_cons {happening : Happening κ ν} {key : κ} {entry : Entry ν} :
    Unbroken (happening :: history) key entry ↔
      (∃ startedAt, happening = .fetched key startedAt entry) ∨
        happening ≠ .invalidated ∧ Unbroken history key entry := by
  constructor
  · rintro ⟨newer, startedAt, older, same, whole⟩
    cases newer with
    | nil =>
        obtain ⟨rfl, -⟩ := List.cons.inj same
        exact .inl ⟨startedAt, rfl⟩
    | cons latest newer =>
        obtain ⟨rfl, rest⟩ := List.cons.inj same
        obtain ⟨other, whole⟩ := not_or.mp (List.mem_cons.not.mp whole)
        exact .inr ⟨fun cleared => other cleared.symm, newer, startedAt, older, rest, whole⟩
  · rintro (⟨startedAt, rfl⟩ | ⟨other, newer, startedAt, older, rfl, whole⟩)
    · exact ⟨[], startedAt, history, rfl, List.not_mem_nil⟩
    · refine ⟨happening :: newer, startedAt, older, rfl, fun member => ?_⟩
      rcases List.mem_cons.mp member with cleared | member
      · exact other cleared.symm
      · exact whole member

theorem Stored.cons {key : κ} {entry : Entry ν} (stored : Stored history key entry)
    (happening : Happening κ ν) : Stored (happening :: history) key entry :=
  stored.imp (fun ⟨startedAt, member⟩ => ⟨startedAt, List.mem_cons_of_mem _ member⟩)
    (List.mem_cons_of_mem _)

theorem Spaced.cons (spaced : Spaced ttl history) {happening : Happening κ ν}
    (fresh : ∀ key startedAt entry, happening = .fetched key startedAt entry →
      ∀ earlier, Unbroken history key earlier → earlier.fetchedAt + ttl ≤ startedAt) :
    Spaced ttl (happening :: history) := by
  intro newer between older key firstStart first secondStart second same whole
  cases newer with
  | nil =>
      obtain ⟨rfl, rest⟩ := List.cons.inj same
      exact fresh key secondStart second rfl first ⟨between, firstStart, older, rest, whole⟩
  | cons latest newer =>
      obtain ⟨-, rest⟩ := List.cons.inj same
      exact spaced newer between older key firstStart first secondStart second rest whole

theorem HitsYoung.cons (young : HitsYoung ttl history) {happening : Happening κ ν}
    (hit : ∀ key entry lookedUpAt, happening = .hit key entry lookedUpAt →
      lookedUpAt < entry.fetchedAt + ttl ∧ Stored history key entry) :
    HitsYoung ttl (happening :: history) := by
  intro newer older key entry lookedUpAt same
  cases newer with
  | nil =>
      obtain ⟨rfl, rfl⟩ := List.cons.inj same
      exact hit key entry lookedUpAt rfl
  | cons latest newer =>
      obtain ⟨-, rest⟩ := List.cons.inj same
      exact young newer older key entry lookedUpAt rest

/-! ## The invariant -/

namespace TtlState

/-- A task between the second look and the end of its guard is the writer, and one that
fetches started after every unbroken value of its key had expired. -/
def TaskOk (ttl : ℚ) (state : TtlState κ ν) (task : Nat) : TtlTask κ ν → Prop
  | .getOrRefresh _ .writing | .getOrRefresh _ (.retaining _) | .set _ _ .holding
  | .invalidate .holding => state.writer = some task
  | .getOrRefresh key (.fetching startedAt) | .getOrRefresh key (.fetched (startedAt, _)) =>
      state.writer = some task ∧
        ∀ entry, Unbroken state.history key entry → entry.fetchedAt + ttl ≤ startedAt
  | _ => True

/-- Past its lifetime, or held in the map by an entry no older. -/
def Covered (ttl : ℚ) (state : TtlState κ ν) (key : κ) (entry : Entry ν) : Prop :=
  entry.fetchedAt + ttl ≤ state.clock ∨
    ∃ later, state.entries key = some later ∧ entry.fetchedAt ≤ later.fetchedAt

structure Timed (ttl : ℚ) (state : TtlState κ ν) : Prop where
  entries : ∀ key entry, state.entries key = some entry →
    entry.fetchedAt ≤ state.clock ∧ Stored state.history key entry
  covered : ∀ key entry, Unbroken state.history key entry →
    entry.fetchedAt ≤ state.clock ∧ state.Covered ttl key entry
  tasks : ∀ task, state.TaskOk ttl task (state.tasks task)
  spaced : Spaced ttl state.history
  young : HitsYoung ttl state.history

variable {before after : TtlState κ ν} {task : Nat}

/-- What a step of one task leaves to the others. -/
structure StepOf (ttl : ℚ) (before after : TtlState κ ν) (task : Nat) : Prop where
  clock : after.clock = before.clock
  others : ∀ other, other ≠ task → after.tasks other = before.tasks other
  writers : ∀ other, other ≠ task → before.writer = some other → after.writer = some other
  own : after.TaskOk ttl task (after.tasks task)

theorem TaskOk.of_kept {other : Nat} {standing : TtlTask κ ν}
    (ok : before.TaskOk ttl other standing)
    (writer : before.writer = some other → after.writer = some other)
    (unbroken : before.writer = some other → ∀ key entry, Unbroken after.history key entry →
      Unbroken before.history key entry) :
    after.TaskOk ttl other standing := by
  cases standing with
  | getOrRefresh key stage =>
      cases stage with
      | writing => exact writer ok
      | retaining => exact writer ok
      | fetching startedAt =>
          exact ⟨writer ok.1, fun entry held => ok.2 entry (unbroken ok.1 key entry held)⟩
      | fetched fresh =>
          exact ⟨writer ok.1, fun entry held => ok.2 entry (unbroken ok.1 key entry held)⟩
      | _ => trivial
  | set key value stage =>
      cases stage with
      | holding => exact writer ok
      | _ => trivial
  | invalidate stage =>
      cases stage with
      | holding => exact writer ok
      | _ => trivial
  | _ => trivial

theorem StepOf.tasks (step : StepOf ttl before after task) (timed : before.Timed ttl)
    (unbroken : ∀ other, other ≠ task → before.writer = some other → ∀ key entry,
      Unbroken after.history key entry → Unbroken before.history key entry) (other : Nat) :
    after.TaskOk ttl other (after.tasks other) := by
  by_cases acts : other = task
  · exact acts ▸ step.own
  · rw [step.others other acts]
    exact (timed.tasks other).of_kept (step.writers other acts) (unbroken other acts)

/-- A step that touches neither the map nor what is remembered. -/
theorem Timed.quiet (timed : before.Timed ttl) (task : Nat) (step : StepOf ttl before after task)
    (entries : after.entries = before.entries) (history : after.history = before.history) :
    after.Timed ttl where
  entries := by
    rw [entries, step.clock, history]
    exact timed.entries
  covered := by
    intro key entry held
    rw [history] at held
    unfold Covered
    rw [entries, step.clock]
    exact timed.covered key entry held
  tasks := step.tasks timed fun _ _ _ key entry held => history ▸ held
  spaced := history ▸ timed.spaced
  young := history ▸ timed.young

theorem unbroken_hit {key other : κ} {entry held : Entry ν} {lookedUpAt : ℚ} :
    Unbroken (.hit key entry lookedUpAt :: history) other held ↔ Unbroken history other held := by
  simp [unbroken_cons]

/-- A step that returns a cached value. -/
theorem Timed.hit (timed : before.Timed ttl) (task : Nat) (step : StepOf ttl before after task)
    {key : κ} {entry : Entry ν} (entries : after.entries = before.entries)
    (history : after.history = .hit key entry before.clock :: before.history)
    (found : before.entries.retain ttl before.clock key = some entry) : after.Timed ttl where
  entries := by
    intro other held present
    rw [entries] at present
    rw [step.clock, history]
    obtain ⟨past, stored⟩ := timed.entries other held present
    exact ⟨past, stored.cons _⟩
  covered := by
    intro other held unbroken
    rw [history, unbroken_hit] at unbroken
    unfold Covered
    rw [entries, step.clock]
    exact timed.covered other held unbroken
  tasks := step.tasks timed fun _ _ _ _ _ unbroken => by rwa [history, unbroken_hit] at unbroken
  spaced := by
    rw [history]
    exact timed.spaced.cons fun _ _ _ impossible => nomatch impossible
  young := by
    rw [history]
    refine timed.young.cons fun other held lookedUpAt same => ?_
    cases same
    obtain ⟨present, young⟩ := Entries.retain_eq_some.mp found
    have spent : before.clock - entry.fetchedAt ≤ durationSince before.clock entry.fetchedAt :=
      le_max_left _ _
    exact ⟨by linarith, (timed.entries key entry present).2⟩

/-- A value stored now is no older than the one it takes the place of. -/
theorem Covered.store [DecidableEq κ] {key other : κ} {value : ν} {held : Entry ν}
    (covered : before.Covered ttl other held) (past : held.fetchedAt ≤ before.clock)
    (clock : after.clock = before.clock)
    (entries : after.entries =
      Function.update before.entries key (some ⟨before.clock, value⟩)) :
    after.Covered ttl other held := by
  refine covered.imp (fun old => clock ▸ old) ?_
  rintro ⟨later, present, younger⟩
  by_cases same : other = key
  · subst same
    exact ⟨⟨before.clock, value⟩, by rw [entries, Function.update_self], past⟩
  · exact ⟨later, by rw [entries, Function.update_of_ne same, present], younger⟩

/-- A step of the writer that stores a value now. -/
theorem Timed.store [DecidableEq κ] (timed : before.Timed ttl) (task : Nat)
    (step : StepOf ttl before after task) {key : κ} {value : ν} {happening : Happening κ ν}
    (writer : before.writer = some task)
    (entries : after.entries =
      Function.update before.entries key (some ⟨before.clock, value⟩))
    (history : after.history = happening :: before.history)
    (stores : happening = .set key ⟨before.clock, value⟩ ∨
      ∃ startedAt, happening = .fetched key startedAt ⟨before.clock, value⟩ ∧
        ∀ earlier, Unbroken before.history key earlier → earlier.fetchedAt + ttl ≤ startedAt) :
    after.Timed ttl where
  entries := by
    intro other held present
    rw [step.clock, history]
    rw [entries] at present
    by_cases same : other = key
    · subst same
      rw [Function.update_self] at present
      cases present
      refine ⟨le_refl _, ?_⟩
      rcases stores with rfl | ⟨startedAt, rfl, -⟩
      · exact .inr List.mem_cons_self
      · exact .inl ⟨startedAt, List.mem_cons_self⟩
    · rw [Function.update_of_ne same] at present
      obtain ⟨past, stored⟩ := timed.entries other held present
      exact ⟨past, stored.cons _⟩
  covered := by
    intro other held unbroken
    rw [history, unbroken_cons] at unbroken
    rcases unbroken with ⟨startedAt, rfl⟩ | ⟨-, earlier⟩
    · rcases stores with impossible | ⟨_, same, -⟩
      · cases impossible
      · cases same
        refine ⟨step.clock ▸ le_refl _, .inr ⟨⟨before.clock, value⟩, ?_, le_refl _⟩⟩
        rw [entries, Function.update_self]
    · obtain ⟨past, covered⟩ := timed.covered other held earlier
      exact ⟨step.clock ▸ past, covered.store past step.clock entries⟩
  tasks := by
    refine step.tasks timed fun other different holds => ?_
    rw [writer] at holds
    exact absurd (Option.some.inj holds).symm different
  spaced := by
    rw [history]
    refine timed.spaced.cons fun other startedAt held same => ?_
    rcases stores with rfl | ⟨_, rfl, expired⟩
    · cases same
    · cases same
      exact expired
  young := by
    rw [history]
    refine timed.young.cons fun other held lookedUpAt same => ?_
    rcases stores with rfl | ⟨_, rfl, -⟩ <;> cases same

/-- A step of the writer that drops what is past its lifetime. -/
theorem Timed.retain (timed : before.Timed ttl) (task : Nat) (step : StepOf ttl before after task)
    (entries : after.entries = before.entries.retain ttl before.clock)
    (history : after.history = before.history) : after.Timed ttl where
  entries := by
    intro key held present
    rw [entries] at present
    rw [step.clock, history]
    exact timed.entries key held (Entries.retain_eq_some.mp present).1
  covered := by
    intro key held unbroken
    rw [history] at unbroken
    obtain ⟨past, covered⟩ := timed.covered key held unbroken
    unfold Covered
    rw [step.clock, entries]
    refine ⟨past, ?_⟩
    rcases covered with old | ⟨later, present, younger⟩
    · exact .inl old
    · by_cases young : durationSince before.clock later.fetchedAt < ttl
      · exact .inr ⟨later, Entries.retain_eq_some.mpr ⟨present, young⟩, younger⟩
      · have spent : durationSince before.clock later.fetchedAt =
            before.clock - later.fetchedAt :=
          max_eq_left (by linarith [(timed.entries key later present).1])
        exact .inl (by linarith)
  tasks := step.tasks timed fun _ _ _ key entry held => history ▸ held
  spaced := history ▸ timed.spaced
  young := history ▸ timed.young

/-- A step of the writer that clears the map. -/
theorem Timed.clear (timed : before.Timed ttl) (task : Nat) (step : StepOf ttl before after task)
    (entries : after.entries = .empty)
    (history : after.history = .invalidated :: before.history) : after.Timed ttl where
  entries := by
    intro key held present
    rw [entries] at present
    cases present
  covered := by
    intro key held unbroken
    rw [history, unbroken_cons] at unbroken
    rcases unbroken with ⟨_, impossible⟩ | ⟨cleared, -⟩
    · cases impossible
    · exact absurd rfl cleared
  tasks := by
    refine step.tasks timed fun _ _ _ key held unbroken => ?_
    rw [history, unbroken_cons] at unbroken
    rcases unbroken with ⟨_, impossible⟩ | ⟨cleared, -⟩
    · cases impossible
    · exact absurd rfl cleared
  spaced := by
    rw [history]
    exact timed.spaced.cons fun _ _ _ impossible => nomatch impossible
  young := by
    rw [history]
    exact timed.young.cons fun _ _ _ impossible => nomatch impossible

/-! ## The steps -/

theorem stepOf_move {stage : TtlTask κ ν} {cache : KeyedTtlCache κ ν}
    {happenings : List (Happening κ ν)}
    (writers : ∀ other, other ≠ task → before.writer = some other → cache.writer = some other)
    (own : (before.move task stage cache happenings).TaskOk ttl task stage) :
    StepOf ttl before (before.move task stage cache happenings) task where
  clock := rfl
  others _ different := Function.update_of_ne different ..
  writers := writers
  own := by
    have moved : (before.move task stage cache happenings).tasks task = stage :=
      Function.update_self ..
    rw [moved]
    exact own

/-- With the guard the task leaves nothing it would have to answer for. -/
theorem stepOf_release {stage : TtlTask κ ν} {cache : KeyedTtlCache κ ν}
    {happenings : List (Happening κ ν)} (writer : cache.writer = before.writer)
    (own : ∀ after, TaskOk ttl after task stage) :
    StepOf ttl before (before.move task stage (cache.release task) happenings) task :=
  stepOf_move
    (fun _ different holds => KeyedTtlCache.release_writer_other different (writer.trans holds))
    (own _)

theorem stepOf_acquire {stage : TtlTask κ ν} {cache : KeyedTtlCache κ ν}
    {happenings : List (Happening κ ν)} (free : before.writer = none)
    (own : (before.move task stage cache happenings).TaskOk ttl task stage) :
    StepOf ttl before (before.move task stage cache happenings) task := by
  refine stepOf_move (fun other _ holds => ?_) own
  rw [free] at holds
  cases holds

variable {state : TtlState κ ν}

/-- A look that finds no entry within its lifetime comes after that of every unbroken value. -/
theorem Timed.expired (timed : state.Timed ttl) {key : κ}
    (absent : state.entries.retain ttl state.clock key = none) {entry : Entry ν}
    (unbroken : Unbroken state.history key entry) : entry.fetchedAt + ttl ≤ state.clock := by
  obtain ⟨past, old | ⟨later, present, younger⟩⟩ := timed.covered key entry unbroken
  · exact old
  · by_cases young : durationSince state.clock later.fetchedAt < ttl
    · rw [Entries.retain_eq_some.mpr ⟨present, young⟩] at absent
      cases absent
    · have spent : durationSince state.clock later.fetchedAt = state.clock - later.fetchedAt :=
        max_eq_left (by linarith [(timed.entries key later present).1])
      linarith

theorem timed_advanceInvalidate (timed : state.Timed ttl) {stage : WriteStage}
    (ready : state.ready (.invalidate stage)) :
    (state.advanceInvalidate task stage).Timed ttl := by
  cases stage with
  | started => exact timed.quiet task (stepOf_acquire ready.1 rfl) rfl rfl
  | holding => exact timed.clear task (stepOf_release rfl fun _ => trivial) rfl rfl
  | done => cases ready.1

theorem timed_endFetch (timed : state.Timed ttl) {key : κ} {startedAt : ℚ}
    (stands : state.tasks task = .getOrRefresh key (.fetching startedAt)) (result : Option ν) :
    (state.endFetch task key startedAt result).Timed ttl := by
  have ok := timed.tasks task
  rw [stands] at ok
  cases result with
  | some fresh => exact timed.quiet task (stepOf_move (fun _ _ holds => holds) ok) rfl rfl
  | none => exact timed.quiet task (stepOf_release rfl fun _ => trivial) rfl rfl

variable [DecidableEq κ]

theorem timed_advanceGet (timed : state.Timed ttl) {key : κ} {stage : CallStage ν}
    (stands : state.tasks task = .getOrRefresh key stage)
    (ready : state.ready (.getOrRefresh key stage)) :
    (state.advanceGet ttl task key stage).Timed ttl := by
  have ok := timed.tasks task
  rw [stands] at ok
  cases stage with
  | started => exact timed.quiet task (stepOf_move (fun _ _ holds => holds) trivial) rfl rfl
  | reading =>
      simp only [advanceGet, KeyedTtlCache.getOrRefresh, happens, Entries.lookup_eq_retain]
      cases found : state.entries.retain ttl state.clock key with
      | some entry => exact timed.hit task (stepOf_release rfl fun _ => trivial) rfl rfl found
      | none => exact timed.quiet task (stepOf_release rfl fun _ => trivial) rfl rfl
  | missed => exact timed.quiet task (stepOf_acquire ready.1 rfl) rfl rfl
  | writing =>
      simp only [advanceGet, KeyedTtlCache.getOrRefresh, happens, Entries.lookup_eq_retain]
      cases found : state.entries.retain ttl state.clock key with
      | some entry => exact timed.hit task (stepOf_release rfl fun _ => trivial) rfl rfl found
      | none =>
          exact timed.quiet task (stepOf_move (fun _ _ holds => holds)
            ⟨ok, fun entry unbroken => timed.expired found unbroken⟩) rfl rfl
  | fetching startedAt => cases ready.2
  | fetched fresh =>
      exact timed.store task (stepOf_move (fun _ _ holds => holds) ok.1) ok.1 rfl rfl
        (.inr ⟨fresh.1, rfl, ok.2⟩)
  | retaining fresh => exact timed.retain task (stepOf_release rfl fun _ => trivial) rfl rfl
  | answered value => cases ready.1

theorem timed_advanceSet (timed : state.Timed ttl) {key : κ} {value : ν} {stage : WriteStage}
    (stands : state.tasks task = .set key value stage)
    (ready : state.ready (.set key value stage)) :
    (state.advanceSet task key value stage).Timed ttl := by
  have ok := timed.tasks task
  rw [stands] at ok
  cases stage with
  | started => exact timed.quiet task (stepOf_acquire ready.1 rfl) rfl rfl
  | holding =>
      exact timed.store task (stepOf_release rfl fun _ => trivial) ok rfl rfl (.inl rfl)
  | done => cases ready.1

theorem timed_step {event : TtlEvent κ ν} (timed : state.Timed ttl)
    (enabled : (ttlSystem ttl).enabled state event) :
    ((ttlSystem ttl).next state event).Timed ttl := by
  cases event with
  | call task call =>
      have own : (state.move task call.task state.toKeyedTtlCache []).TaskOk ttl task call.task := by
        cases call <;> trivial
      exact timed.quiet task (stepOf_move (fun _ _ holds => holds) own) rfl rfl
  | advance task =>
      simp only [ttlSystem] at enabled ⊢
      cases stands : state.tasks task with
      | idle => exact timed
      | dropped => exact timed
      | failed => exact timed
      | getOrRefresh key stage => exact timed_advanceGet timed stands (stands ▸ enabled)
      | set key value stage => exact timed_advanceSet timed stands (stands ▸ enabled)
      | invalidate stage => exact timed_advanceInvalidate timed (stands ▸ enabled)
  | fetched task result =>
      simp only [ttlSystem]
      split
      · rename_i key startedAt stands
        exact timed_endFetch timed stands result
      · exact timed
  | drop task => exact timed.quiet task (stepOf_release rfl fun _ => trivial) rfl rfl
  | elapse duration =>
      have later : state.clock ≤ state.clock + duration := le_add_of_nonneg_right enabled
      refine ⟨fun key entry found => ?_, fun key entry unbroken => ?_, fun task => ?_,
        timed.spaced, timed.young⟩
      · exact (timed.entries key entry found).imp_left fun past => past.trans later
      · obtain ⟨past, covered⟩ := timed.covered key entry unbroken
        exact ⟨past.trans later, covered.imp_left fun old => old.trans later⟩
      · exact (timed.tasks task).of_kept (fun holds => holds) fun _ _ _ unbroken => unbroken

end TtlState

end Filehost.Cache
