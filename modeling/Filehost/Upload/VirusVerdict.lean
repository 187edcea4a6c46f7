import Filehost.Cache.BanCache
import Filehost.Cache.Commits
import Filehost.Store.Sharing
import Filehost.Upload.Process

namespace Filehost.Upload

open Filehost.Admin Filehost.Cache Filehost.Data Filehost.Database Filehost.Store

/-! # Verdicts on content

Uploads check their hash against the bans, look for a duplicate and store their row in
separate steps.  A scan that finds a virus bans the hash, clears the cell of hashes and deletes
the one row it was started for, and all of these steps interleave. -/

/-- Where an upload stands.  From the answer of the hash check on it remembers the tick at
which that check began. -/
inductive PostStage where
  | checking
  | rejected (began : Nat)
  | allowed (began : Nat)
  | fresh (began : Nat)
  | existing (began : Nat)
  | stored (began : Nat) (id : Uuid)
  | infected (began : Nat) (id : Uuid)

/-- The start of an upload that was not rejected. -/
def PostStage.accepted : PostStage → Option Nat
  | .checking | .rejected _ => none
  | .allowed began | .fresh began | .existing began | .stored began _ | .infected began _ =>
      some began

structure Post where
  content : List UInt8
  stage : PostStage

/-- A scan that clamd answered with a virus. -/
structure InfectedScan where
  id : Uuid
  hash : List UInt8
  finishedAt : Option Nat

variable {matcher : BanMatcher}

/-- Uploads have the number of the task that checks their hash, scans that of the task that
bans it. -/
structure ScanState (matcher : BanMatcher) where
  bans : BanCacheState matcher
  storage : Storage
  posts : Nat → Option Post
  scans : Nat → Option InfectedScan

/-- `bans` is any step of the ban cache, `delete` any other deletion. -/
inductive ScanEvent where
  | bans (event : CacheEvent BanKey BanTables BanHandler)
  | post (task : Nat) (content : List UInt8)
  | judge (task : Nat)
  | findDuplicate (task : Nat)
  | store (task : Nat) (draft : Upload)
  | infected (task post : Nat) (name : List Char)
  | deleteById (task : Nat) (now : Int) (removal : Uuid → Bool)
  | delete (target : DeleteTarget) (now : Int) (faults : DeleteFaults)

def ScanState.initial (tables : BanTables) (clock : ℚ) (storage : Storage) : ScanState matcher :=
  ⟨.initial tables clock, storage, fun _ => none, fun _ => none⟩

def hashAnswer : Task BanKey (BanValue matcher) BanHandler → Option (Nat × List (List UInt8))
  | .check .hash _ began (.answered answer) => some (began, answer.value)
  | _ => none

/-- The answer to a verdict, its ban committed and the cell of hashes cleared. -/
def verdictAnswer : Task BanKey (BanValue matcher) BanHandler → Option (List UInt8)
  | .handler (.spawnClamdScan hash _) (.responded _ _) => some hash
  | _ => none

def hasActive (table : Uploads) (hash : List UInt8) : Bool :=
  table.rows.any fun row => row.active && row.hash = some hash

/-- The row of an upload with this content. -/
def rowOf (env : StoreEnv) (content : List UInt8) (draft : Upload) : Upload :=
  { draft with hash := some (env.blake3 content), deletedTimestamp := none }

namespace ScanState

variable (state : ScanState matcher)

def movePost (task : Nat) (post : Post) : ScanState matcher :=
  { state with posts := Function.update state.posts task (some post) }

def moveScan (task : Nat) (scan : InfectedScan) : ScanState matcher :=
  { state with scans := Function.update state.scans task (some scan) }

end ScanState

/-- The database steps of an upload and of a scan do not fail; those of other requests may. -/
def scanSystem (env : StoreEnv) (dedup : Bool) (matcher : BanMatcher) (ttl : ℚ) :
    System (ScanState matcher) ScanEvent where
  enabled state event :=
    match event with
    | .bans event => (cacheSystem (banBacking matcher ttl)).enabled state.bans event
    | .post task _ => state.bans.tasks task = .idle
    | .judge task => ∃ content, state.posts task = some ⟨content, .checking⟩ ∧
        (hashAnswer (state.bans.tasks task)).isSome
    | .findDuplicate task =>
        ∃ content began, state.posts task = some ⟨content, .allowed began⟩
    | .store task draft => ∃ content began, state.posts task = some ⟨content, .fresh began⟩ ∧
        (state.storage.uploads.insertUploadRow (rowOf env content draft)).isSome
    | .infected task post _ => state.bans.tasks task = .idle ∧
        ∃ content began id, state.posts post = some ⟨content, .stored began id⟩
    | .deleteById task _ _ => ∃ id hash, state.scans task = some ⟨id, hash, none⟩ ∧
        verdictAnswer (state.bans.tasks task) = some hash
    | .delete _ _ _ => True
  next state event :=
    match event with
    | .bans event =>
        { state with bans := (cacheSystem (banBacking matcher ttl)).next state.bans event }
    | .post task content =>
        { state.movePost task ⟨content, .checking⟩ with
          bans := (cacheSystem (banBacking matcher ttl)).next state.bans (.beginCheck task .hash ()) }
    | .judge task =>
        match state.posts task, hashAnswer (state.bans.tasks task) with
        | some post, some (began, hashes) =>
            if isHashBanned matcher hashes (env.blake3 post.content) then
              state.movePost task ⟨post.content, .rejected began⟩
            else state.movePost task ⟨post.content, .allowed began⟩
        | _, _ => state
    | .findDuplicate task =>
        match state.posts task with
        | some ⟨content, .allowed began⟩ =>
            if dedup && hasActive state.storage.uploads (env.blake3 content) then
              state.movePost task ⟨content, .existing began⟩
            else state.movePost task ⟨content, .fresh began⟩
        | _ => state
    | .store task draft =>
        match state.posts task with
        | some ⟨content, .fresh began⟩ =>
            let row := rowOf env content draft
            match state.storage.uploads.insertUploadRow row with
            | none => state
            | some uploads =>
                { state.movePost task ⟨content, .stored began row.id⟩ with
                  storage := ⟨uploads, saveFile .persisted content (uuidToPath env.root row.id)
                    state.storage.files⟩ }
        | _ => state
    | .infected task post name =>
        match state.posts post with
        | some ⟨content, .stored began id⟩ =>
            { (state.movePost post ⟨content, .infected began id⟩).moveScan task
                ⟨id, env.blake3 content, none⟩ with
              bans := (cacheSystem (banBacking matcher ttl)).next state.bans
                (.beginHandler task (.spawnClamdScan (env.blake3 content) name)) }
        | _ => state
    | .deleteById task now removal =>
        match state.scans task with
        | some ⟨id, hash, none⟩ =>
            { state.moveScan task ⟨id, hash, some state.bans.tick⟩ with
              storage := (deleteMatching env ⟨false, removal, fun _ => false⟩ (.byId id) now
                state.storage).1 }
        | _ => state
    | .delete target now faults =>
        { state with storage := (deleteMatching env faults target now state.storage).1 }

/-- Once a scan that found a virus is done, no active upload has its hash. -/
def ContentRemoved (state : ScanState matcher) : Prop :=
  ∀ task scan finishedAt, state.scans task = some scan → scan.finishedAt = some finishedAt →
    ∀ row ∈ state.storage.uploads.rows, row.active = true → row.hash ≠ some scan.hash

/-- An upload of the hash that begins after the scan is done is not accepted. -/
def LaterRejected (env : StoreEnv) (state : ScanState matcher) : Prop :=
  ∀ task scan finishedAt, state.scans task = some scan → scan.finishedAt = some finishedAt →
    ∀ other post began, state.posts other = some post → env.blake3 post.content = scan.hash →
      finishedAt ≤ began → post.stage.accepted ≠ some began

/-- The scan deletes the only active row with its hash, and no upload whose check came before
a verdict on its hash stores its row after the scan is done. -/
def VerdictAlone (env : StoreEnv) (state : ScanState matcher) : ScanEvent → Prop
  | .deleteById task _ _ => ∀ scan, state.scans task = some scan →
      ∀ row ∈ state.storage.uploads.rows, row.active = true → row.hash = some scan.hash →
        row.id = scan.id
  | .store task _ => ∀ post, state.posts task = some post →
      ∀ other scan finishedAt, state.scans other = some scan →
        scan.finishedAt = some finishedAt → env.blake3 post.content ≠ scan.hash
  | _ => True

/-! ## The rows -/

variable {env : StoreEnv} {dedup : Bool} {ttl : ℚ} {state : ScanState matcher}

theorem mem_deleteById {storage : Storage} {id : Uuid} {now : Int} {removal : Uuid → Bool}
    {row : Upload} (active : row.active = true) :
    row ∈ (deleteMatching env ⟨false, removal, fun _ => false⟩ (.byId id) now
        storage).1.uploads.rows ↔
      row ∈ storage.uploads.rows ∧ row.id ≠ id := by
  rw [mem_deleteMatching rfl rfl (fun _ => rfl) active]
  simp [DeleteTarget.whereClause]

theorem contentRemoved_store_iff (removed : ContentRemoved state) {task : Nat} {draft : Upload}
    (enabled : (scanSystem env dedup matcher ttl).enabled state (.store task draft)) :
    (scanSystem env dedup matcher ttl).leadsTo ContentRemoved state (.store task draft) ↔
      VerdictAlone env state (.store task draft) := by
  obtain ⟨content, began, stands, accepted⟩ := enabled
  obtain ⟨uploads, inserted⟩ := Option.isSome_iff_exists.mp accepted
  have rows := (Uploads.insertUploadRow_rows inserted).1
  simp only [System.leadsTo, scanSystem, stands, inserted, ContentRemoved, VerdictAlone,
    ScanState.movePost, rows, List.mem_cons, forall_eq_or_imp, Option.some.injEq]
  constructor
  · rintro holds post rfl other scan finishedAt started finished same
    exact (holds other scan finishedAt started finished).1 rfl (congrArg some same)
  · intro alone other scan finishedAt started finished
    refine ⟨fun _ same => ?_, removed other scan finishedAt started finished⟩
    exact alone _ rfl other scan finishedAt started finished (Option.some.inj same)

theorem contentRemoved_deleteById_iff (removed : ContentRemoved state) {task : Nat} {now : Int}
    {removal : Uuid → Bool}
    (enabled : (scanSystem env dedup matcher ttl).enabled state (.deleteById task now removal)) :
    (scanSystem env dedup matcher ttl).leadsTo ContentRemoved state
        (.deleteById task now removal) ↔
      VerdictAlone env state (.deleteById task now removal) := by
  obtain ⟨id, hash, scans, -⟩ := enabled
  simp only [System.leadsTo, scanSystem, scans, ContentRemoved, VerdictAlone, ScanState.moveScan,
    Option.some.injEq]
  constructor
  · rintro holds scan rfl row member active same
    by_contra different
    exact holds task ⟨id, hash, some state.bans.tick⟩ state.bans.tick (Function.update_self ..) rfl
      row ((mem_deleteById active).mpr ⟨member, different⟩) active same
  · intro alone other scan finishedAt started finished row member active same
    obtain ⟨before, different⟩ := (mem_deleteById active).mp member
    by_cases acts : other = task
    · subst acts
      rw [Function.update_self] at started
      cases started
      exact different (alone _ rfl row before active same)
    · rw [Function.update_of_ne acts] at started
      exact removed other scan finishedAt started finished row before active same

theorem contentRemoved_iff {event : ScanEvent} (removed : ContentRemoved state)
    (enabled : (scanSystem env dedup matcher ttl).enabled state event) :
    (scanSystem env dedup matcher ttl).leadsTo ContentRemoved state event ↔
      VerdictAlone env state event := by
  cases event with
  | bans event => exact iff_of_true removed trivial
  | post task content => exact iff_of_true removed trivial
  | judge task | findDuplicate task =>
      refine iff_of_true ?_ trivial
      simp only [System.leadsTo, scanSystem]
      split
      · split <;> exact removed
      · exact removed
  | store task draft => exact contentRemoved_store_iff removed enabled
  | infected task post name =>
      refine iff_of_true ?_ trivial
      obtain ⟨-, content, began, id, stands⟩ := enabled
      simp only [System.leadsTo, scanSystem, stands]
      intro other scan finishedAt started finished
      by_cases acts : other = task
      · subst acts
        simp only [ScanState.moveScan, Function.update_self, Option.some.injEq] at started
        subst started
        cases finished
      · simp only [ScanState.moveScan, Function.update_of_ne acts] at started
        exact removed other scan finishedAt started finished
  | deleteById task now removal => exact contentRemoved_deleteById_iff removed enabled
  | delete target now faults =>
      refine iff_of_true ?_ trivial
      intro other scan finishedAt started finished row member active
      have fades := deleteMatching_fades env faults now target state.storage
      exact removed other scan finishedAt started finished row (fades.mem member active) active

/-! ## Later uploads -/

/-- The ban a verdict commits is in the table. -/
def SeesVerdict : BanHandler → BanTables → Prop
  | .spawnClamdScan hash _, tables => hash ∈ tables.hashes.map BannedFileHash.hash
  | _, _ => True

/-- No step lifts the ban of a verdict. -/
def UpholdsVerdicts (matcher : BanMatcher) (ttl : ℚ) (state : ScanState matcher) :
    ScanEvent → Prop
  | .bans event => CacheState.Upholds SeesVerdict state.bans
      ((cacheSystem (banBacking matcher ttl)).next state.bans event)
  | _ => True

theorem seesVerdict_of_run {handler : BanHandler} {tables after : BanTables}
    (ran : (banBacking matcher ttl).execute handler tables = some after) :
    SeesVerdict handler after := by
  cases handler with
  | spawnClamdScan hash name =>
      cases ran
      simp only [SeesVerdict, BanTables.insertBannedHash, insertIgnore]
      split
      · rename_i present
        obtain ⟨row, member, same⟩ := List.any_eq_true.mp present
        exact List.mem_map.mpr ⟨row, member, eq_of_beq same⟩
      · simp
  | _ => trivial

/-- The handler of a scan that is done has responded, and before it was done. -/
def Responded (state : ScanState matcher) (task : Nat) (hash : List UInt8) (finishedAt : Nat) :
    Prop :=
  ∃ name committedAt respondedAt, respondedAt < finishedAt ∧
    state.bans.tasks task = .handler (.spawnClamdScan hash name) (.responded committedAt respondedAt)

structure Sound (env : StoreEnv) (ttl : ℚ) (tables : BanTables) (clock : ℚ)
    (state : ScanState matcher) : Prop where
  reached : ∃ events, (cacheSystem (banBacking matcher ttl)).Run (.initial tables clock) events
    state.bans
  lasts : state.bans.Lasts SeesVerdict
  posts : ∀ task post began, state.posts task = some post → post.stage.accepted = some began →
    began < state.bans.tick
  scans : ∀ task scan finishedAt, state.scans task = some scan →
    scan.finishedAt = some finishedAt → Responded state task scan.hash finishedAt
  later : LaterRejected env state

variable {tables : BanTables} {clock : ℚ}

theorem sound_initial (env : StoreEnv) (storage : Storage) :
    Sound env ttl tables clock (.initial tables clock storage : ScanState matcher) where
  reached := ⟨[], .start⟩
  lasts := CacheState.lasts_initial tables clock
  posts _ _ _ posted := nomatch posted
  scans _ _ _ started := nomatch started
  later _ _ _ started := nomatch started

theorem Sound.of_bans (sound : Sound env ttl tables clock state)
    {event : CacheEvent BanKey BanTables BanHandler}
    (enabled : (cacheSystem (banBacking matcher ttl)).enabled state.bans event)
    (upheld : CacheState.Upholds SeesVerdict state.bans
      ((cacheSystem (banBacking matcher ttl)).next state.bans event)) :
    Sound env ttl tables clock
      { state with bans := (cacheSystem (banBacking matcher ttl)).next state.bans event } := by
  have progress := CacheState.progress_of_step enabled
  obtain ⟨events, run⟩ := sound.reached
  refine ⟨⟨event :: events, .step run enabled⟩,
    sound.lasts.of_progress progress upheld (fun _ _ _ => seesVerdict_of_run), ?_, ?_, sound.later⟩
  · intro task post began posted accepted
    exact lt_of_lt_of_le (sound.posts task post began posted accepted) progress.tick
  · intro task scan finishedAt started finished
    obtain ⟨name, committedAt, respondedAt, before, stands⟩ :=
      sound.scans task scan finishedAt started finished
    exact ⟨name, committedAt, respondedAt, before,
      progress.keeps task _ _ respondedAt stands rfl⟩

theorem Sound.movePost (sound : Sound env ttl tables clock state) (task : Nat) {post : Post}
    (past : ∀ began, post.stage.accepted = some began → began < state.bans.tick)
    (early : ∀ other scan finishedAt, state.scans other = some scan →
      scan.finishedAt = some finishedAt → ∀ began, env.blake3 post.content = scan.hash →
        finishedAt ≤ began → post.stage.accepted ≠ some began) :
    Sound env ttl tables clock (state.movePost task post) where
  reached := sound.reached
  lasts := sound.lasts
  posts := by
    intro other found began posted accepted
    by_cases acts : other = task
    · subst acts
      simp only [ScanState.movePost, Function.update_self, Option.some.injEq] at posted
      exact past began (posted ▸ accepted)
    · simp only [ScanState.movePost, Function.update_of_ne acts] at posted
      exact sound.posts other found began posted accepted
  scans := sound.scans
  later := by
    intro other scan finishedAt started finished uploader found began posted same after
    by_cases acts : uploader = task
    · subst acts
      simp only [ScanState.movePost, Function.update_self, Option.some.injEq] at posted
      subst posted
      exact early other scan finishedAt started finished began same after
    · simp only [ScanState.movePost, Function.update_of_ne acts] at posted
      exact sound.later other scan finishedAt started finished uploader found began posted same
        after

/-- An accepted upload goes on without another check. -/
theorem Sound.advancePost (sound : Sound env ttl tables clock state) (task : Nat) (next : Post)
    {other : Nat} {post : Post} (posted : state.posts other = some post)
    (content : next.content = post.content) (stage : next.stage.accepted = post.stage.accepted) :
    Sound env ttl tables clock (state.movePost task next) := by
  refine sound.movePost task (fun began accepted => ?_) ?_
  · exact sound.posts other post began posted (stage ▸ accepted)
  · intro scanner scan finishedAt started finished began same after accepted
    exact sound.later scanner scan finishedAt started finished other post began posted
      (content ▸ same) after (stage ▸ accepted)

theorem Sound.moveScan (sound : Sound env ttl tables clock state) (task : Nat)
    (scan : InfectedScan) (finished : ∀ finishedAt, scan.finishedAt = some finishedAt →
      finishedAt = state.bans.tick ∧ Responded state task scan.hash finishedAt) :
    Sound env ttl tables clock (state.moveScan task scan) where
  reached := sound.reached
  lasts := sound.lasts
  posts := sound.posts
  scans := by
    intro other found finishedAt started done
    by_cases acts : other = task
    · subst acts
      simp only [ScanState.moveScan, Function.update_self, Option.some.injEq] at started
      subst started
      exact (finished finishedAt done).2
    · simp only [ScanState.moveScan, Function.update_of_ne acts] at started
      exact sound.scans other found finishedAt started done
  later := by
    intro other found finishedAt started done uploader post began posted same after accepted
    by_cases acts : other = task
    · subst acts
      simp only [ScanState.moveScan, Function.update_self, Option.some.injEq] at started
      subst started
      have past := sound.posts uploader post began posted accepted
      have now := (finished finishedAt done).1
      omega
    · simp only [ScanState.moveScan, Function.update_of_ne acts] at started
      exact sound.later other found finishedAt started done uploader post began posted same after
        accepted

theorem Sound.withStorage (sound : Sound env ttl tables clock state) (storage : Storage) :
    Sound env ttl tables clock { state with storage } :=
  ⟨sound.reached, sound.lasts, sound.posts, sound.scans, sound.later⟩

theorem hashAnswer_eq_some {task : Task BanKey (BanValue matcher) BanHandler} {began : Nat}
    {hashes : List (List UInt8)} (answered : hashAnswer task = some (began, hashes)) :
    ∃ key answer, task = .check .hash key began (.answered answer) ∧ answer.value = hashes := by
  unfold hashAnswer at answered
  split at answered
  · cases answered
    exact ⟨_, _, rfl, rfl⟩
  · cases answered

theorem verdictAnswer_eq_some {task : Task BanKey (BanValue matcher) BanHandler}
    {hash : List UInt8} (answered : verdictAnswer task = some hash) :
    ∃ name committedAt respondedAt,
      task = .handler (.spawnClamdScan hash name) (.responded committedAt respondedAt) := by
  unfold verdictAnswer at answered
  split at answered
  · cases answered
    exact ⟨_, _, _, rfl⟩
  · cases answered

/-- A check that began after a scan was done has an answer with the hash it banned. -/
theorem Sound.answer_has_verdict (sound : Sound env ttl tables clock state) {task other : Nat}
    {scan : InfectedScan} {began finishedAt : Nat} {hashes : List (List UInt8)}
    (answered : hashAnswer (state.bans.tasks task) = some (began, hashes))
    (started : state.scans other = some scan) (finished : scan.finishedAt = some finishedAt)
    (after : finishedAt ≤ began) : scan.hash ∈ hashes := by
  obtain ⟨name, committedAt, respondedAt, before, responded⟩ :=
    sound.scans other scan finishedAt started finished
  obtain ⟨key, answer, checked, rfl⟩ := hashAnswer_eq_some answered
  obtain ⟨events, run⟩ := sound.reached
  obtain ⟨since, read, now, held, same⟩ :=
    banCheck_reads_after_commit run checked responded rfl (lt_of_lt_of_le before after)
  have seen := (sound.lasts.commits (.spawnClamdScan scan.hash name) committedAt
    ⟨other, _, responded, rfl⟩).2 _ held since
  rw [same]
  exact seen

theorem sound_judge (sound : Sound env ttl tables clock state) {task : Nat}
    (enabled : (scanSystem env dedup matcher ttl).enabled state (.judge task)) :
    Sound env ttl tables clock ((scanSystem env dedup matcher ttl).next state (.judge task)) := by
  obtain ⟨content, posted, present⟩ := enabled
  obtain ⟨⟨began, hashes⟩, answered⟩ := Option.isSome_iff_exists.mp present
  simp only [scanSystem, posted, answered]
  split
  · exact sound.movePost task (fun _ rejected => nomatch rejected)
      (fun _ _ _ _ _ _ _ _ rejected => nomatch rejected)
  · rename_i absent
    refine sound.movePost task ?_ ?_
    · rintro started accepted
      cases accepted
      obtain ⟨key, answer, checked, -⟩ := hashAnswer_eq_some answered
      obtain ⟨events, run⟩ := sound.reached
      have ok := (CacheState.coherent_of_run run).tasks task
      rw [checked] at ok
      exact ok.1
    · rintro other scan finishedAt started finished since same after accepted
      cases accepted
      have banned := sound.answer_has_verdict answered started finished after
      exact absurd (List.contains_iff_mem.mpr (same ▸ banned)) absent

theorem sound_step {event : ScanEvent} (sound : Sound env ttl tables clock state)
    (enabled : (scanSystem env dedup matcher ttl).enabled state event)
    (upheld : UpholdsVerdicts matcher ttl state event) :
    Sound env ttl tables clock ((scanSystem env dedup matcher ttl).next state event) := by
  have still : ∀ after : BanCacheState matcher, after.tables = state.bans.tables →
      CacheState.Upholds SeesVerdict state.bans after :=
    fun after same change committedAt committed =>
      same ▸ (sound.lasts.commits change committedAt committed).1
  cases event with
  | bans event => exact sound.of_bans enabled upheld
  | post task content =>
      have begun : (cacheSystem (banBacking matcher ttl)).enabled state.bans
          (.beginCheck task .hash ()) := enabled
      exact (sound.of_bans begun (still _ rfl)).movePost task (fun _ checking => nomatch checking)
        (fun _ _ _ _ _ _ _ _ checking => nomatch checking)
  | judge task => exact sound_judge sound enabled
  | findDuplicate task =>
      obtain ⟨content, began, posted⟩ := enabled
      simp only [scanSystem, posted]
      split
      · exact sound.advancePost task ⟨content, .existing began⟩ posted rfl rfl
      · exact sound.advancePost task ⟨content, .fresh began⟩ posted rfl rfl
  | store task draft =>
      obtain ⟨content, began, posted, accepted⟩ := enabled
      obtain ⟨uploads, inserted⟩ := Option.isSome_iff_exists.mp accepted
      simp only [scanSystem, posted, inserted]
      exact (sound.advancePost task ⟨content, .stored began (rowOf env content draft).id⟩ posted
        rfl rfl).withStorage _
  | infected task post name =>
      obtain ⟨idle, content, began, id, posted⟩ := enabled
      simp only [scanSystem, posted]
      have begun : (cacheSystem (banBacking matcher ttl)).enabled state.bans
          (.beginHandler task (.spawnClamdScan (env.blake3 content) name)) := idle
      have banning := sound.of_bans begun (still _ rfl)
      exact (banning.advancePost post ⟨content, .infected began id⟩ posted rfl rfl).moveScan task
        ⟨id, env.blake3 content, none⟩ fun _ pending => nomatch pending
  | deleteById task now removal =>
      obtain ⟨id, hash, started, answered⟩ := enabled
      simp only [scanSystem, started]
      refine (sound.moveScan task ⟨id, hash, some state.bans.tick⟩ ?_).withStorage _
      rintro finishedAt finished
      cases finished
      obtain ⟨name, committedAt, respondedAt, responded⟩ := verdictAnswer_eq_some answered
      exact ⟨rfl, name, committedAt, respondedAt,
        sound.lasts.responses task _ _ respondedAt responded rfl, responded⟩
  | delete target now faults => exact sound.withStorage _

/-- No active upload keeps the hash of a verdict in any state of exactly those runs in which
each scan deletes the only active row with its hash and no upload past its check stores such a
row afterwards.  Where no ban of a verdict is lifted, every later upload of the content is
rejected. -/
theorem verdict_removes_content_iff (env : StoreEnv) (dedup : Bool) (matcher : BanMatcher)
    (ttl : ℚ) (tables : BanTables) (clock : ℚ) (storage : Storage) (events : List ScanEvent)
    (state : ScanState matcher) :
    let system := scanSystem env dedup matcher ttl
    let start := ScanState.initial tables clock storage
    ((system.restrict (system.leadsTo ContentRemoved)).Run start events state ↔
        (system.restrict (VerdictAlone env)).Run start events state) ∧
      ((system.restrict (UpholdsVerdicts matcher ttl)).Run start events state →
        LaterRejected env state) := by
  constructor
  · refine System.run_keeps_iff (fun _ _ _ started => nomatch started) ?_
    exact fun state event removed enabled => contentRemoved_iff removed enabled
  · intro run
    have sound : Sound env ttl tables clock state :=
      run.invariant (sound_initial env storage)
        fun _ _ sound enabled => sound_step sound enabled.1 enabled.2
    exact sound.later

/-! ## A copy survives -/

def copyStorage : Storage :=
  ⟨⟨[emptyUpload firstUuid 1 "copy"], List.nodup_singleton _⟩, fun _ => none⟩

/-- An upload of content that is active already, without dedup, and its verdict. -/
def copiedThenInfected : List ScanEvent :=
  [ScanEvent.deleteById 1 3 fun _ => false] ++ List.replicate 4 (ScanEvent.bans (.advance 1)) ++
    [ScanEvent.infected 1 0 "Eicar".toList, .store 0 (emptyUpload secondUuid 2 "virus"),
      .findDuplicate 0, .judge 0] ++
    List.replicate 7 (ScanEvent.bans (.advance 0)) ++ [ScanEvent.post 0 []]

theorem copy_survives_verdict :
    ∃ state, (scanSystem plainEnv false plainMatcher 300).Run (.initial Cache.noBans 0 copyStorage)
        copiedThenInfected state ∧
      ¬ ContentRemoved state := by
  refine ⟨_, .of_admits (by repeat' constructor), fun removed => ?_⟩
  exact removed 1 ⟨secondUuid, emptyDigest, some 13⟩ 13 rfl rfl
    (emptyUpload firstUuid 1 "copy") (by decide) rfl rfl

end Filehost.Upload
