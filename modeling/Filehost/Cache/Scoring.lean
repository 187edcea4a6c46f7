import Filehost.Cache.Rensfw
import Filehost.Store.Tracking

namespace Filehost.Cache

open Filehost.Data Filehost.Database Filehost.Ip Filehost.Store Filehost.Upload

/-! # Scores over time

The file of an image is scored after its upload, and again by command.  Either reads
the file first and writes the score later, and the store changes in between. -/

/-- `classified` holds the scores that are yet to be written. -/
structure ScoredStore where
  storage : Storage
  scores : Scores
  classified : List (Uuid × ℚ)

inductive ScoringEvent where
  | maintain (event : MaintenanceEvent)
  | classify (id : Uuid)
  | record (id : Uuid) (score : ℚ) (fails : Bool)

def ScoredStore.empty : ScoredStore := ⟨.empty, fun _ => none, []⟩

/-- The column of a row that is inserted is null. -/
def scoresAfter (scores : Scores) : MaintenanceEvent → Scores
  | .upload row _ => Function.update scores row.id none
  | _ => scores

/-- A scan of an upload begins after its row was inserted. -/
def scoringSystem (env : StoreEnv) (model : NsfwModel) : System ScoredStore ScoringEvent where
  enabled state
    | .maintain event => (maintenanceSystem env).enabled state.storage event
    | .classify id => id ∈ state.storage.uploads.rows.map Upload.id
    | .record id score _ => (id, score) ∈ state.classified
  next state
    | .maintain event =>
        { state with
          storage := (maintenanceSystem env).next state.storage event
          scores := scoresAfter state.scores event }
    | .classify id =>
        { state with
          classified :=
            (classify env model state.storage.files id).toList.map (id, ·) ++ state.classified }
    | .record id score fails =>
        { state with
          scores := if fails then state.scores else Scores.updateNsfwScore state.scores id score
          classified := state.classified.erase (id, score) }

/-- A score that the model gave to a content with the hash of the upload, the hash that
what is read for the upload has too. -/
structure Earned (env : StoreEnv) (model : NsfwModel) (storage : Storage) (id : Uuid) (score : ℚ)
    (content : List UInt8) : Prop where
  scored : model content = some score
  hash : ∀ row ∈ storage.uploads.rows, row.id = id → ∀ hash, row.hash = some hash →
    env.blake3 content = hash
  held : ∀ now, storage.files.Holds (uuidToPath env.root id) now → SameHash env content now

structure Known (env : StoreEnv) (model : NsfwModel) (storage : Storage) (id : Uuid) (score : ℚ) :
    Prop where
  listed : id ∈ storage.uploads.rows.map Upload.id
  earned : ∃ content, Earned env model storage id score content

structure Scored (env : StoreEnv) (model : NsfwModel) (state : ScoredStore) : Prop where
  honest : Honest env state.storage
  written : ∀ id score, state.scores id = some score → Known env model state.storage id score
  classified : ∀ id score, (id, score) ∈ state.classified → Known env model state.storage id score

variable {env : StoreEnv} {model : NsfwModel} {storage : Storage} {state : ScoredStore} {id : Uuid}
  {score : ℚ}

/-! ## One step -/

/-- The hash of a row that is not new was stored before or is that of its file. -/
theorem hash_next {event : MaintenanceEvent} (enabled : (maintenanceSystem env).enabled storage event)
    {later : Upload} (member : later ∈ ((maintenanceSystem env).next storage event).uploads.rows)
    (known : later.id ∈ storage.uploads.rows.map Upload.id) {hash : List UInt8}
    (stored : later.hash = some hash) :
    (∃ earlier ∈ storage.uploads.rows, earlier.id = later.id ∧ earlier.hash = some hash) ∨
      ∃ content, ((maintenanceSystem env).next storage event).files.Holds
        (uuidToPath env.root later.id) content ∧ env.blake3 content = hash := by
  cases event with
  | upload row content =>
      rcases mem_storeUpload member with rfl | before
      · exact absurd known enabled.2.2
      · exact .inl ⟨later, before, rfl, stored⟩
  | delete target now faults =>
      rw [maintenanceSystem, deleteMatching_uploads env faults now target storage] at member
      obtain ⟨earlier, found, sameId, sameHash⟩ := mem_setAllDeleted member
      exact .inl ⟨earlier, found, sameId, sameHash.trans stored⟩
  | dedup faults groups => exact .inl ⟨later, member, rfl, stored⟩
  | rehash faults ids =>
      obtain ⟨earlier, found, rfl | rfl⟩ := mem_rehashed member
      · exact .inl ⟨later, found, rfl, stored⟩
      · rcases rehashedRow_hash stored with before | ⟨content, held, same⟩
        · exact .inl ⟨earlier, found, (rehashedRow_id earlier).symm, before⟩
        · refine .inr ⟨content, ?_, same⟩
          rw [rehashedRow_id, maintenanceSystem, rehashed_files]
          exact held
  | clearHashes =>
      obtain ⟨earlier, found, rfl⟩ := List.mem_map.mp member
      split at stored
      · cases stored
      · rename_i kept
        exact .inl ⟨earlier, found, by rw [if_neg kept], stored⟩

theorem Known.next {event : MaintenanceEvent} (known : Known env model storage id score)
    (honest : Honest env storage) (enabled : (maintenanceSystem env).enabled storage event) :
    Known env model ((maintenanceSystem env).next storage event) id score := by
  have follows := honest.follows_next enabled
  obtain ⟨row, member, rfl⟩ := List.mem_map.mp known.listed
  obtain ⟨later, laterMember, lives⟩ := follows.rows.later member
  obtain ⟨content, earned⟩ := known.earned
  have held : ∀ now, ((maintenanceSystem env).next storage event).files.Holds
      (uuidToPath env.root row.id) now → SameHash env content now := by
    intro now holds
    obtain ⟨earlier, heldEarlier, same⟩ := follows.held row member now holds
    exact (earned.held earlier heldEarlier).trans same
  refine ⟨List.mem_map.mpr ⟨later, laterMember, lives.id⟩, content, earned.scored, ?_, held⟩
  intro other otherMember same hash stored
  have listed : other.id ∈ storage.uploads.rows.map Upload.id := by
    rw [same]
    exact known.listed
  rcases hash_next enabled otherMember listed stored with
    ⟨earlier, earlierMember, sameId, before⟩ | ⟨read, readHeld, sameHash⟩
  · exact earned.hash earlier earlierMember (sameId.trans same) hash before
  · rw [same] at readHeld
    exact (held read readHeld).trans sameHash

theorem known_of_classify (honest : Honest env storage)
    (listed : id ∈ storage.uploads.rows.map Upload.id)
    (classified : classify env model storage.files id = some score) :
    Known env model storage id score := by
  obtain ⟨content, readable, scored⟩ := Option.bind_eq_some_iff.mp classified
  have held : storage.files.Holds (uuidToPath env.root id) content := ⟨_, readable⟩
  refine ⟨listed, content, scored, ?_, fun now holds => ?_⟩
  · rintro row member rfl hash stored
    exact honest.hashes row member hash stored content held
  · rw [SameHash, held.unique holds]

theorem Scored.next {event : ScoringEvent} (scored : Scored env model state)
    (enabled : (scoringSystem env model).enabled state event) :
    Scored env model ((scoringSystem env model).next state event) := by
  cases event with
  | maintain event =>
      refine ⟨scored.honest.next enabled, fun id score written => ?_, fun id score member =>
        (scored.classified id score member).next scored.honest enabled⟩
      refine (scored.written id score ?_).next scored.honest enabled
      cases event with
      | upload row content =>
          change Function.update state.scores row.id none id = some score at written
          rw [Function.update_apply] at written
          split at written
          · cases written
          · exact written
      | delete target now faults => exact written
      | dedup faults groups => exact written
      | rehash faults ids => exact written
      | clearHashes => exact written
  | classify id =>
      refine ⟨scored.honest, scored.written, fun other score member => ?_⟩
      rcases List.mem_append.mp member with new | old
      · obtain ⟨given, found, same⟩ := List.mem_map.mp new
        cases same
        exact known_of_classify scored.honest enabled (Option.mem_toList.mp found)
      · exact scored.classified other score old
  | record id score fails =>
      refine ⟨scored.honest, fun other given written => ?_, fun other given member =>
        scored.classified other given (List.mem_of_mem_erase member)⟩
      change (if fails then state.scores else Scores.updateNsfwScore state.scores id score) other =
        some given at written
      split at written
      · exact scored.written other given written
      · rw [Scores.updateNsfwScore, Function.update_apply] at written
        split at written
        · rename_i same
          cases written
          rw [same]
          exact scored.classified id score enabled
        · exact scored.written other given written

/-! ## Runs -/

theorem rensfwOne_run (model : NsfwModel) (faults : RensfwFaults) (dryRun : Bool)
    (listed : id ∈ state.storage.uploads.rows.map Upload.id) (scanned errors : Nat) :
    ∃ events, (scoringSystem env model).Run state events
      { state with
        scores := (rensfwOne env model faults dryRun state.storage.files
          ⟨state.scores, scanned, errors⟩ id).scores } := by
  unfold rensfwOne
  cases found : faults.classify env model state.storage.files id with
  | none => exact ⟨[], .start⟩
  | some score =>
      have classified : classify env model state.storage.files id = some score := by
        unfold RensfwFaults.classify at found
        split at found
        · cases found
        · exact found
      cases dryRun with
      | true => exact ⟨[], .start⟩
      | false =>
          refine ⟨[.record id score (faults.update id), .classify id], ?_⟩
          have run : (scoringSystem env model).Run state
              [.record id score (faults.update id), .classify id] _ :=
            .of_admits ⟨⟨trivial, listed⟩, by simp [System.after, scoringSystem, classified]⟩
          simpa [System.after, scoringSystem, classified] using run

/-- What the command alone does is a run of such steps. -/
theorem rensfw_run (model : NsfwModel) (faults : RensfwFaults) (dryRun : Bool) {ids : List Uuid}
    (listed : ∀ id ∈ ids, id ∈ state.storage.uploads.rows.map Upload.id) (scanned errors : Nat) :
    ∃ events, (scoringSystem env model).Run state events
      { state with
        scores := (ids.foldl (rensfwOne env model faults dryRun state.storage.files)
          ⟨state.scores, scanned, errors⟩).scores } := by
  induction ids generalizing state scanned errors with
  | nil => exact ⟨[], .start⟩
  | cons id rest ih =>
      have first := @rensfwOne_run env state id model faults dryRun
        (listed id List.mem_cons_self) scanned errors
      rw [List.foldl_cons]
      generalize rensfwOne env model faults dryRun state.storage.files
        ⟨state.scores, scanned, errors⟩ id = progress at first ⊢
      obtain ⟨older, first⟩ := first
      obtain ⟨newer, later⟩ := @ih { state with scores := progress.scores }
        (fun other member => listed other (List.mem_cons_of_mem _ member)) progress.scanned
        progress.errors
      exact ⟨newer ++ older, first.append later⟩

theorem run_scored {events : List ScoringEvent}
    (run : (scoringSystem env model).Run .empty events state) : Scored env model state :=
  run.invariant
    ⟨honest_empty, fun _ _ written => (nomatch written), fun _ _ member =>
      (List.not_mem_nil member).elim⟩
    fun _ _ scored enabled => scored.next enabled

theorem hasNsfwUploadLastWeek_iff {table : Uploads} {scores : Scores} {client : IpAddr} {now : Int}
    {minScore : ℚ} :
    hasNsfwUploadLastWeek table scores client now minScore = true ↔
      ∃ row ∈ table.rows, inQuotaRange client row.uploaderIp = true ∧ lastWeek now row = true ∧
        ∃ score, scores row.id = some score ∧ minScore ≤ score := by
  simp only [hasNsfwUploadLastWeek, List.any_eq_true, Bool.and_eq_true, Option.any_eq_true,
    decide_eq_true_eq, and_assoc]

/-- Whatever is uploaded, deleted, linked or hashed again while files are scored, and
whatever of it fails.  A suspect has an upload of the last week that counts as its own, and
the model gave a high score to a content with the hash of that upload; and who has such an
image in the store is suspect once all of them are scored again, which is a run of such steps
itself. -/
theorem run_suspects {events : List ScoringEvent} (collation : Collation)
    (run : (scoringSystem env model).Run .empty events state) (client : IpAddr) (now : Int)
    (minScore : ℚ) :
    (hasNsfwUploadLastWeek state.storage.uploads state.scores client now minScore = true →
      ∃ row ∈ state.storage.uploads.rows, inQuotaRange client row.uploaderIp = true ∧
        lastWeek now row = true ∧ ∃ content score, model content = some score ∧ minScore ≤ score ∧
          (∀ hash, row.hash = some hash → env.blake3 content = hash) ∧
          ∀ held, state.storage.content env row = some held → env.blake3 content = env.blake3 held) ∧
      ∀ faults ids, faults.Faultless →
        ids.Perm (uploadsForNsfwScan collation state.storage.uploads state.scores true) →
        ∃ done, rensfw env (some model) faults false (some ids) state.storage.files state.scores =
            some done ∧
          (∃ later, (scoringSystem env model).Run state later { state with scores := done.scores }) ∧
          ∀ row ∈ state.storage.uploads.rows, row.active = true → isImage collation row = true →
            inQuotaRange client row.uploaderIp = true → lastWeek now row = true →
            ∀ held score, state.storage.content env row = some held → model held = some score →
              minScore ≤ score →
                hasNsfwUploadLastWeek state.storage.uploads done.scores client now minScore = true := by
  have scored := run_scored run
  refine ⟨fun suspect => ?_, fun faults ids faultless listed => ?_⟩
  · obtain ⟨row, member, counted, recent, score, written, high⟩ := hasNsfwUploadLastWeek_iff.mp suspect
    obtain ⟨content, earned⟩ := (scored.written row.id score written).earned
    exact ⟨row, member, counted, recent, content, score, earned.scored, high,
      earned.hash row member rfl, fun held readable => earned.held held ⟨_, readable⟩⟩
  · obtain ⟨done, ran, scores, -⟩ := @rensfw_settles collation env model faults false true
      state.storage.files state.scores state.storage.uploads ids listed
    have listedRows : ∀ id ∈ ids, id ∈ state.storage.uploads.rows.map Upload.id := by
      intro id member
      obtain ⟨row, selected, rfl⟩ := List.mem_map.mp (listed.mem_iff.mp member)
      exact List.mem_map_of_mem (List.mem_filter.mp selected).1
    obtain ⟨later, reached⟩ := rensfw_run model faults false listedRows 0 0
    have same := Option.some.inj ((rensfw_eq ids).symm.trans ran)
    rw [same] at reached
    refine ⟨done, ran, ⟨later, reached⟩,
      fun row member active image counted recent held score readable given high => ?_⟩
    have selected : selectedForScan collation state.scores true row = true := by
      rw [selectedForScan, active, image]
      rfl
    have classified : classify env model state.storage.files row.id = some score :=
      Option.bind_eq_some_iff.mpr ⟨held, readable, given⟩
    obtain ⟨reads, writes⟩ := faultless row.id
    have written : done.scores row.id = some score := by
      rw [scores row member, if_pos selected]
      simp [newScore, RensfwFaults.classify, reads, writes, classified]
    exact hasNsfwUploadLastWeek_iff.mpr ⟨row, member, counted, recent, score, written, high⟩

/-- The older copy was read before it became a link, and its score is written after. -/
def scannedEvents : List ScoringEvent :=
  [.record firstUuid 1 false,
    .maintain (.dedup (fun _ => .none) [(secondUuid, [firstUuid])]), .classify firstUuid,
    .maintain (.upload (asImage (emptyUpload secondUuid 2 "def")) []),
    .maintain (.upload (asImage (emptyUpload firstUuid 1 "abc")) [])]

theorem scanned_run :
    (scoringSystem plainEnv sureModel).Run .empty scannedEvents
      ((scoringSystem plainEnv sureModel).after .empty scannedEvents) := by
  refine .of_admits ⟨⟨⟨⟨⟨trivial, rfl, rfl, by decide⟩, rfl, rfl, by decide⟩, ?_⟩, ?_⟩, ?_⟩
  · exact .tail _ (.head _)
  · intro group member dupId listed
    cases List.mem_singleton.mp member
    cases List.mem_singleton.mp listed
    exact List.mem_of_mem_head? rfl
  · exact .head _

theorem uploader_size : (List.replicate 15 (0 : UInt8) ++ [1]).length = 16 := rfl

def uploader : IpAddr := .v6 ⟨List.replicate 15 0 ++ [1], uploader_size⟩

theorem scanned_suspect :
    ∃ row ∈ ((scoringSystem plainEnv sureModel).after .empty scannedEvents).storage.uploads.rows,
      inQuotaRange uploader row.uploaderIp = true ∧ lastWeek 3 row = true ∧ ∃ content score,
        sureModel content = some score ∧ 1 ≤ score ∧
          (∀ hash, row.hash = some hash → plainEnv.blake3 content = hash) ∧
          ∀ held, ((scoringSystem plainEnv sureModel).after .empty scannedEvents).storage.content
            plainEnv row = some held → plainEnv.blake3 content = plainEnv.blake3 held := by
  refine (run_suspects .binary scanned_run uploader 3 1).1 (hasNsfwUploadLastWeek_iff.mpr ?_)
  exact ⟨asImage (emptyUpload firstUuid 1 "abc"), .tail _ (.head _), by decide, by decide, 1, rfl,
    le_refl _⟩

end Filehost.Cache
