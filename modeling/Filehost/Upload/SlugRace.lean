import Filehost.Store.Sharing
import Filehost.Upload.Slug

namespace Filehost.Upload

open Filehost.Data Filehost.Database Filehost.Store

/-! # Concurrent requests and their slugs

A request checks its candidate, saves the file and inserts the row in separate
steps.  Only the primary key keeps rows apart, so two requests may settle on one
slug between these steps. -/

/-- Where a request stands.  `seen` counts the rows of the table when the slug
was found free. -/
inductive RequestStage where
  | idle
  | allocating (draft : Upload) (slug : SlugRequest) (idLen attempt : Nat)
  | allocated (row : Upload) (seen : Nat)
  | saved (row : Upload) (seen : Nat)
  | finished

structure SlugState where
  storage : Storage
  requests : Nat → RequestStage

inductive SlugEvent where
  | begin (request : Nat) (draft : Upload) (ctSubtype : Option (List Char)) (keepName : Bool)
      (idLen : Nat)
  | check (request : Nat) (draw : List Char)
  | save (request : Nat) (content : List UInt8)
  | insert (request : Nat) (now : Int)
  | abandon (request : Nat)
  | delete (target : DeleteTarget) (now : Int) (faults : DeleteFaults)

def SlugState.empty : SlugState := ⟨.empty, fun _ => .idle⟩

def SlugState.move (state : SlugState) (request : Nat) (stage : RequestStage) : SlugState :=
  { state with requests := Function.update state.requests request stage }

/-- One attempt of `allocate_unique_slug`: a taken candidate is drawn again, and
after a few attempts with a longer random string. -/
def checkSlug (env : StoreEnv) (settings : SlugSettings) (table : Uploads) (draft : Upload)
    (slug : SlugRequest) (idLen attempt : Nat) (draw : List Char) : RequestStage :=
  let candidate := slug.candidate settings draw
  if table.isSlugTaken env.collation candidate then
    .allocating draft slug (nextAttempt idLen attempt).1 (nextAttempt idLen attempt).2
  else .allocated { draft with slug := candidate } table.rows.length

def slugSystem (env : StoreEnv) (settings : SlugSettings) : System SlugState SlugEvent where
  enabled state event :=
    match event with
    | .begin request draft _ _ _ => state.requests request = .idle ∧ draft.active = true
    | .check request draw => ∃ draft slug idLen attempt,
        state.requests request = .allocating draft slug idLen attempt ∧ drawable idLen draw
    | .save request _ => ∃ row seen, state.requests request = .allocated row seen
    | .insert request _ => ∃ row seen, state.requests request = .saved row seen
    | .abandon _ | .delete _ _ _ => True
  next state event :=
    match event with
    | .begin request draft ctSubtype keepName idLen =>
        state.move request (.allocating draft ⟨draft.originalName, ctSubtype, keepName⟩ idLen 0)
    | .check request draw =>
        match state.requests request with
        | .allocating draft slug idLen attempt =>
            state.move request
              (checkSlug env settings state.storage.uploads draft slug idLen attempt draw)
        | _ => state
    | .save request content =>
        match state.requests request with
        | .allocated row seen =>
            { state.move request (.saved row seen) with
              storage.files := Function.update state.storage.files (uuidToPath env.root row.id)
                (some (.file content)) }
        | _ => state
    | .insert request now =>
        match state.requests request with
        | .saved row _ =>
            { state.move request .finished with
              storage.uploads := (state.storage.uploads.insertUploadRow
                { row with uploadTimestamp := now }).getD state.storage.uploads }
        | _ => state
    | .abandon request => state.move request .finished
    | .delete target now faults =>
        { state with storage := (deleteMatching env faults target now state.storage).1 }

def UniqueSlugs (table : Uploads) : Prop := table.SlugsDistinct (· = ·)

/-- The rows inserted since a request found its slug free. -/
def insertedSince (table : Uploads) (seen : Nat) : List Upload :=
  table.rows.take (table.rows.length - seen)

/-- No row inserted since the check of this request is active with its slug, or
the insertion is refused. -/
def WinsRace (state : SlugState) : SlugEvent → Prop
  | .insert request now =>
      match state.requests request with
      | .saved row seen =>
          (state.storage.uploads.insertUploadRow { row with uploadTimestamp := now }).isSome →
            ∀ other ∈ insertedSince state.storage.uploads seen, other.active = true →
              other.slug ≠ row.slug
      | _ => True
  | _ => True

def FreeAtCheck (table : Uploads) (slug : List Char) (seen : Nat) : Prop :=
  seen ≤ table.rows.length ∧
    ∀ other ∈ table.rows.drop (table.rows.length - seen), other.active = true → other.slug ≠ slug

theorem FreeAtCheck.of_fades {before after : Uploads} {slug : List Char} {seen : Nat}
    (free : FreeAtCheck before slug seen) (fades : before.Fades after) :
    FreeAtCheck after slug seen := by
  obtain ⟨fade, rows, keeps⟩ := fades
  rw [FreeAtCheck, rows, List.length_map, ← List.map_drop]
  refine ⟨free.1, fun other member active => ?_⟩
  obtain ⟨row, before, rfl⟩ := List.mem_map.mp member
  have unchanged := keeps row active
  rw [unchanged] at active ⊢
  exact free.2 row before active

theorem FreeAtCheck.of_insert {table after : Uploads} {slug : List Char} {seen : Nat} {row : Upload}
    (free : FreeAtCheck table slug seen) (inserted : table.insertUploadRow row = some after) :
    FreeAtCheck after slug seen := by
  obtain ⟨within, absent⟩ := free
  have shift : table.rows.length + 1 - seen = (table.rows.length - seen) + 1 := by omega
  rw [FreeAtCheck, (Uploads.insertUploadRow_rows inserted).1, List.length_cons, shift,
    List.drop_succ_cons]
  exact ⟨by omega, absent⟩

theorem freeAtCheck_of_not_taken {env : StoreEnv} {table : Uploads} {slug : List Char}
    (free : table.isSlugTaken env.collation slug = false) :
    FreeAtCheck table slug table.rows.length := by
  refine ⟨Nat.le_refl _, fun other member active same => ?_⟩
  have apart := Uploads.apart_of_not_taken free (List.mem_of_mem_drop member) active
  exact apart (same ▸ env.collation.equal_self other.slug)

theorem uniqueSlugs_insert_iff {table after : Uploads} {row : Upload} {seen : Nat}
    (unique : UniqueSlugs table) (active : row.active = true)
    (free : FreeAtCheck table row.slug seen) (inserted : table.insertUploadRow row = some after) :
    UniqueSlugs after ↔
      ∀ other ∈ insertedSince table seen, other.active = true → other.slug ≠ row.slug := by
  obtain ⟨rows, fresh⟩ := Uploads.insertUploadRow_rows inserted
  constructor
  · intro uniqueAfter other member otherActive same
    have otherMember := List.mem_of_mem_take member
    have identical : other = row := by
      refine uniqueAfter other ?_ row ?_ otherActive active same <;> rw [rows]
      · exact List.mem_cons_of_mem _ otherMember
      · exact List.mem_cons_self
    exact fresh (identical ▸ List.mem_map_of_mem otherMember)
  · intro wins
    have apart : ∀ other ∈ table.rows, other.active = true → other.slug ≠ row.slug := by
      intro other member
      rw [← List.take_append_drop (table.rows.length - seen) table.rows] at member
      rcases List.mem_append.mp member with recent | earlier
      · exact wins other recent
      · exact free.2 other earlier
    exact unique.of_insert (fun _ _ => Eq.symm) apart inserted

/-- A slug that was found free stays free of the rows of that time, until its
row is inserted. -/
def RequestOk (table : Uploads) : RequestStage → Prop
  | .allocating draft _ _ _ => draft.active = true
  | .allocated row seen | .saved row seen =>
      row.active = true ∧ FreeAtCheck table row.slug seen
  | .idle | .finished => True

def RequestsOk (state : SlugState) : Prop :=
  ∀ request, RequestOk state.storage.uploads (state.requests request)

theorem RequestOk.of_fades {before after : Uploads} (fades : before.Fades after)
    {stage : RequestStage} (ok : RequestOk before stage) : RequestOk after stage := by
  cases stage with
  | idle => trivial
  | allocating => exact ok
  | allocated row seen => exact ⟨ok.1, ok.2.of_fades fades⟩
  | saved row seen => exact ⟨ok.1, ok.2.of_fades fades⟩
  | finished => trivial

theorem RequestOk.of_insert {table after : Uploads} {row : Upload}
    (inserted : table.insertUploadRow row = some after) {stage : RequestStage}
    (ok : RequestOk table stage) : RequestOk after stage := by
  cases stage with
  | idle => trivial
  | allocating => exact ok
  | allocated row seen => exact ⟨ok.1, ok.2.of_insert inserted⟩
  | saved row seen => exact ⟨ok.1, ok.2.of_insert inserted⟩
  | finished => trivial

theorem RequestsOk.move {state : SlugState} (ok : RequestsOk state) {request : Nat}
    {stage : RequestStage} (stageOk : RequestOk state.storage.uploads stage) :
    RequestsOk (state.move request stage) := by
  intro other
  by_cases same : other = request
  · subst same
    simpa [SlugState.move] using stageOk
  · simpa [SlugState.move, Function.update_of_ne same] using ok other

theorem checkSlug_ok {env : StoreEnv} {settings : SlugSettings} {table : Uploads} {draft : Upload}
    (active : draft.active = true) (slug : SlugRequest) (idLen attempt : Nat) (draw : List Char) :
    RequestOk table (checkSlug env settings table draft slug idLen attempt draw) := by
  unfold checkSlug
  dsimp only
  split
  · exact active
  · rename_i free
    exact ⟨active, freeAtCheck_of_not_taken (by simpa using free)⟩

variable {env : StoreEnv} {settings : SlugSettings} {state : SlugState} {event : SlugEvent}

theorem requestsOk_next (ok : RequestsOk state)
    (enabled : (slugSystem env settings).enabled state event) :
    RequestsOk ((slugSystem env settings).next state event) := by
  cases event with
  | begin request draft ctSubtype keepName idLen => exact ok.move enabled.2
  | check request draw =>
      obtain ⟨draft, slug, idLen, attempt, stands, -⟩ := enabled
      have active := ok request
      rw [stands] at active
      simp only [slugSystem, stands]
      exact ok.move (checkSlug_ok active slug idLen attempt draw)
  | save request content =>
      obtain ⟨row, seen, stands⟩ := enabled
      have free := ok request
      rw [stands] at free
      simp only [slugSystem, stands]
      exact ok.move free
  | insert request now =>
      obtain ⟨row, seen, stands⟩ := enabled
      simp only [slugSystem, stands]
      have moved : RequestsOk (state.move request .finished) := ok.move trivial
      cases inserted : state.storage.uploads.insertUploadRow { row with uploadTimestamp := now } with
      | none => exact moved
      | some after => exact fun other => (moved other).of_insert inserted
  | abandon request => exact ok.move trivial
  | delete target now faults =>
      intro request
      exact (ok request).of_fades (deleteMatching_fades env faults now target state.storage)

theorem uniqueSlugs_next_iff (unique : UniqueSlugs state.storage.uploads) (ok : RequestsOk state) :
    UniqueSlugs ((slugSystem env settings).next state event).storage.uploads ↔
      WinsRace state event := by
  cases event with
  | begin request draft ctSubtype keepName idLen => exact iff_of_true unique trivial
  | check request draw =>
      refine iff_of_true ?_ trivial
      simp only [slugSystem]
      split <;> exact unique
  | save request content =>
      refine iff_of_true ?_ trivial
      simp only [slugSystem]
      split <;> exact unique
  | insert request now =>
      simp only [slugSystem, WinsRace]
      have stageOk := ok request
      split
      · rename_i row seen stands
        rw [stands] at stageOk
        cases inserted : state.storage.uploads.insertUploadRow
            { row with uploadTimestamp := now } with
        | none => exact iff_of_true unique (fun refused => Bool.noConfusion refused)
        | some after =>
            have active : ({ row with uploadTimestamp := now } : Upload).active = true := stageOk.1
            simpa using uniqueSlugs_insert_iff unique active stageOk.2 inserted
      · exact iff_of_true unique trivial
  | abandon request => exact iff_of_true unique trivial
  | delete target now faults =>
      have fades := deleteMatching_fades env faults now target state.storage
      exact iff_of_true (unique.of_fades fades) trivial

/-- The runs in which a slug never names two live files are those in which every
insertion wins its race. -/
theorem run_uniqueSlugs_iff {events : List SlugEvent} :
    ((slugSystem env settings).restrict
        ((slugSystem env settings).leadsTo fun state => UniqueSlugs state.storage.uploads)).Run
      .empty events state ↔
    ((slugSystem env settings).restrict WinsRace).Run .empty events state := by
  refine System.run_leadsTo_iff ⟨?_, fun _ => trivial⟩ (fun _ _ => requestsOk_next)
    fun _ _ holds _ => uniqueSlugs_next_iff holds.1 holds.2
  intro left leftMember
  cases leftMember

def plainSlugs : SlugSettings := ⟨false, 7, Char.isAlphanum⟩

/-- Two requests draw the same string before either inserts its row. -/
def racingEvents : List SlugEvent :=
  [.insert 1 0, .insert 0 0, .save 1 [], .save 0 [], .check 1 "abc".toList, .check 0 "abc".toList,
    .begin 1 (emptyUpload secondUuid 0 "") none false 3,
    .begin 0 (emptyUpload firstUuid 0 "") none false 3]

theorem racing_requests_share_slug :
    (slugSystem plainEnv plainSlugs).Run .empty racingEvents
        ((slugSystem plainEnv plainSlugs).after .empty racingEvents) ∧
      ¬UniqueSlugs
        ((slugSystem plainEnv plainSlugs).after .empty racingEvents).storage.uploads := by
  refine ⟨.of_admits ⟨⟨⟨⟨⟨⟨⟨⟨trivial, rfl, rfl⟩, rfl, rfl⟩, ?_⟩, ?_⟩, ?_⟩, ?_⟩, ?_⟩, ?_⟩, ?_⟩
  · exact ⟨_, _, _, _, rfl, by decide⟩
  · exact ⟨_, _, _, _, rfl, by decide⟩
  · exact ⟨_, _, rfl⟩
  · exact ⟨_, _, rfl⟩
  · exact ⟨_, _, rfl⟩
  · exact ⟨_, _, rfl⟩
  · intro unique
    have same := unique (emptyUpload firstUuid 0 "abc.txt") (by decide)
      (emptyUpload secondUuid 0 "abc.txt") (by decide) rfl rfl rfl
    exact absurd same (by decide)

end Filehost.Upload
