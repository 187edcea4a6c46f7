import Filehost.Store.Tracking
import Filehost.Upload.Retention
import Filehost.Upload.Serving

namespace Filehost.Upload

open Filehost.Data Filehost.Database Filehost.Store

/-! # What a link delivers

Files are uploaded and their links handed out, and between that the store is
maintained.  Every request and every command is over before the next begins.  A file whose
upload failed may stay behind. -/

inductive HostingEvent where
  | upload (request : FileRequest) (answers : Answers)
  | maintain (chore : MaintenanceEvent)

def hostingSystem (env : StoreEnv) (settings : Settings) : System Storage HostingEvent where
  enabled storage event :=
    match event with
    | .upload request answers =>
        LookupAgrees env storage.uploads request answers ∧
          answers.uuid ∉ storage.uploads.rows.map Upload.id
    | .maintain chore =>
        chore.stores = false ∧ (maintenanceSystem env).enabled storage chore
  next storage event :=
    match event with
    | .upload request answers => (processFile env settings request answers storage).2
    | .maintain chore => (maintenanceSystem env).next storage chore

variable {env : StoreEnv} {settings : Settings} {request : FileRequest} {answers : Answers}
  {storage final : Storage} {events later : List HostingEvent}

/-! ## One upload -/

theorem saved_eq_storeUpload {row : Upload} (reaches : ReachesSave env settings request answers storage row)
    (saved : answers.save.succeeds = true) :
    saveFile answers.save request.file.content (uuidToPath env.root answers.uuid) storage.files =
      (storeUpload env row request.file.content storage).files := by
  have id : row.id = answers.uuid := congrArg Upload.id reaches.described
  change _ = Function.update storage.files (uuidToPath env.root row.id) _
  rw [id, saveFile]
  cases save : answers.save with
  | persisted => rfl
  | copied => rfl
  | failed left =>
      rw [save] at saved
      cases saved

theorem saveAndInsert_stored {row : Upload}
    (reaches : ReachesSave env settings request answers storage row)
    (saved : answers.save.succeeds = true)
    (inserted : storage.uploads.insertUploadRow row =
      some (saveAndInsert env request answers row storage).2.uploads) :
    (saveAndInsert env request answers row storage).2 =
      storeUpload env row request.file.content storage := by
  have files := saveAndInsert_files env request answers storage row
  rw [saved_eq_storeUpload reaches saved] at files
  have stored : storeUpload env row request.file.content storage =
      ⟨(saveAndInsert env request answers row storage).2.uploads,
        (storeUpload env row request.file.content storage).files⟩ := by
    rw [storeUpload, inserted]
    rfl
  rw [stored, ← files]

/-- An upload changes nothing, leaves a file behind, or is stored. -/
inductive UploadStep (env : StoreEnv) (settings : Settings) (request : FileRequest)
    (answers : Answers) (storage : Storage) : Storage → Prop where
  | nothing : UploadStep env settings request answers storage storage
  | left (content : List UInt8) :
      UploadStep env settings request answers storage (litter env answers.uuid content storage)
  | stored (row : Upload) (reaches : ReachesSave env settings request answers storage row) :
      UploadStep env settings request answers storage
        (storeUpload env row request.file.content storage)

variable (env settings request answers storage) in
theorem uploadStep : UploadStep env settings request answers storage
    (processFile env settings request answers storage).2 := by
  by_cases reaches : ∃ row, ReachesSave env settings request answers storage row
  · obtain ⟨row, reached⟩ := reaches
    rw [processFile_of_reachesSave reached]
    obtain ⟨files, ⟨-, same⟩ | ⟨-, saved, -, inserted⟩⟩ :=
      saveAndInsert_cases env request answers storage row
    · have unsaved : (saveAndInsert env request answers row storage).2 =
          ⟨storage.uploads, saveFile answers.save request.file.content
            (uuidToPath env.root answers.uuid) storage.files⟩ := by
        rw [← files, ← same]
      rw [unsaved, saveFile]
      cases answers.save.written request.file.content with
      | none => exact .nothing
      | some content => exact .left content
    · rw [saveAndInsert_stored reached saved inserted]
      exact .stored row reached
  · rw [processFile_unchanged reaches]
    exact .nothing

/-- What is stored is stored as the model of maintenance stores it. -/
theorem stored_enabled {row : Upload} (reaches : ReachesSave env settings request answers storage row)
    (fresh : answers.uuid ∉ storage.uploads.rows.map Upload.id) :
    (maintenanceSystem env).enabled storage (.upload row request.file.content) := by
  rw [reaches.described]
  exact ⟨rfl, rfl, fresh⟩

/-! ## What a run keeps -/

/-- Slugs of active uploads are apart and stored hashes are true. -/
structure Hosts (env : StoreEnv) (storage : Storage) : Prop where
  honest : Honest env storage
  named : storage.uploads.SlugsDistinct fun left right => env.collation.equal left right = true

theorem hosts_empty : Hosts env .empty :=
  ⟨honest_empty, fun _ member => absurd member List.not_mem_nil⟩

theorem named_stored {row : Upload} (hosts : Hosts env storage)
    (reaches : ReachesSave env settings request answers storage row) :
    (storeUpload env row request.file.content storage).uploads.SlugsDistinct
      fun left right => env.collation.equal left right = true := by
  change ((storage.uploads.insertUploadRow row).getD storage.uploads).SlugsDistinct _
  cases inserted : storage.uploads.insertUploadRow row with
  | none => exact hosts.named
  | some after =>
      have free := allocateUniqueSlug_free reaches.named
      exact hosts.named.of_insert (fun _ _ => Collation.equal_symm)
        (fun _ => Uploads.apart_of_not_taken free) inserted

theorem Hosts.uploaded {after : Storage} (hosts : Hosts env storage)
    (fresh : answers.uuid ∉ storage.uploads.rows.map Upload.id)
    (step : UploadStep env settings request answers storage after) :
    Hosts env after ∧ Follows env storage after := by
  cases step with
  | nothing => exact ⟨hosts, .refl storage⟩
  | left content =>
      exact ⟨⟨hosts.honest.litter fresh content, hosts.named⟩,
        hosts.honest.follows_litter fresh content⟩
  | stored row reaches =>
      have allowed := stored_enabled reaches fresh
      exact ⟨⟨hosts.honest.next allowed, named_stored hosts reaches⟩,
        hosts.honest.follows_next allowed⟩

theorem Hosts.next {event : HostingEvent} (hosts : Hosts env storage)
    (enabled : (hostingSystem env settings).enabled storage event) :
    Hosts env ((hostingSystem env settings).next storage event) ∧
      Follows env storage ((hostingSystem env settings).next storage event) := by
  cases event with
  | upload request answers =>
      exact hosts.uploaded enabled.2 (uploadStep env settings request answers storage)
  | maintain chore =>
      obtain ⟨stores, allowed⟩ := enabled
      refine ⟨⟨hosts.honest.next allowed, ?_⟩, hosts.honest.follows_next allowed⟩
      exact (continues_next allowed).rows.slugsDistinct (length_next stores) hosts.named

theorem Hosts.run (hosts : Hosts env storage)
    (run : (hostingSystem env settings).Run storage events final) :
    Hosts env final ∧ Follows env storage final := by
  induction run with
  | start => exact ⟨hosts, .refl storage⟩
  | step _ enabled ih =>
      obtain ⟨reached, follows⟩ := ih
      obtain ⟨next, followsOn⟩ := reached.next enabled
      exact ⟨next, follows.trans followsOn⟩

/-! ## What is handed out -/

/-- The row of a link, as it is when the link is handed out for a content. -/
structure LinkedTo (same : List UInt8 → List UInt8 → Prop) (env : StoreEnv) (content : List UInt8)
    (slug : List Char) (storage : Storage) (row : Upload) : Prop where
  member : row ∈ storage.uploads.rows
  active : row.active = true
  slug : row.slug = slug
  held : ∀ held, storage.files.Holds (uuidToPath env.root row.id) held → same held content

variable {same : List UInt8 → List UInt8 → Prop}

theorem processFile_stored {row : Upload}
    (reaches : ReachesSave env settings request answers storage row)
    (link : (processFile env settings request answers storage).1 = some (.ok row.slug)) :
    (processFile env settings request answers storage).2 =
        storeUpload env row request.file.content storage ∧
      row ∈ (processFile env settings request answers storage).2.uploads.rows := by
  rw [processFile_of_reachesSave reaches] at link ⊢
  rcases (saveAndInsert_cases env request answers storage row).2 with
    ⟨failed, -⟩ | ⟨-, saved, -, inserted⟩
  · rw [failed] at link
    cases link
  · refine ⟨saveAndInsert_stored reaches saved inserted, ?_⟩
    rw [(Uploads.insertUploadRow_rows inserted).1]
    exact List.mem_cons_self

/-- The hash decides what is a duplicate, so it is up to the hash that the row of a
link holds the content. -/
theorem linkedTo_of_link {slug : List Char} (hosts : Hosts env storage)
    (enabled : (hostingSystem env settings).enabled storage (.upload request answers))
    (link : (processFile env settings request answers storage).1 = some (.ok slug))
    (reflexive : same request.file.content request.file.content)
    (alike : ∀ row ∈ storage.uploads.rows, ∀ held,
      storage.files.Holds (uuidToPath env.root row.id) held →
        env.blake3 held = env.blake3 request.file.content → same held request.file.content) :
    ∃ row, LinkedTo same env request.file.content slug
      (processFile env settings request answers storage).2 row := by
  rcases processFile_link link with ⟨existing, found, rfl, unchanged⟩ | ⟨row, reached, rfl, -⟩
  · have agrees := enabled.1
    rw [LookupAgrees, findDuplicate_found found] at agrees
    obtain ⟨member, active, hashed, -⟩ := agrees
    rw [unchanged]
    refine ⟨existing, member, active, rfl, fun held holds => ?_⟩
    exact alike existing member held holds
      (hosts.honest.hashes existing member _ hashed held holds)
  · obtain ⟨stored, member⟩ := processFile_stored reached link
    refine ⟨row, member, ?_, rfl, fun held holds => ?_⟩
    · rw [reached.described]
      rfl
    · rw [stored] at holds
      rw [holds.unique (FileSystem.holds_of_file (storeUpload_own row _))]
      exact reflexive

theorem serveRow_content {parser : MimeParser} {row : Upload} {files : FileSystem}
    {served : ServedFile} (answered : serveRow env parser row files = .file served) :
    served.fileName = row.originalName ∧
      files.Holds (uuidToPath env.root row.id) served.content := by
  unfold serveRow at answered
  split at answered
  · contradiction
  · rename_i content readable
    cases answered
    exact ⟨rfl, _, readable⟩

/-- Until its upload is deleted a link finds the row it was handed out for. -/
theorem LinkedTo.found {content : List UInt8} {slug : List Char} {row : Upload}
    (linked : LinkedTo same env content slug storage row) (hosts : Hosts env final)
    (follows : Follows env storage final) (active : final.uploads.isActive row.id = true) :
    ∃ current ∈ final.uploads.rows, current.active = true ∧
      final.uploads.getUploadBySlug env.collation slug = some current ∧ LivesOnAs row current := by
  obtain ⟨current, member, lives⟩ := follows.rows.later linked.member
  obtain ⟨other, otherMember, sameId, otherActive⟩ := Uploads.isActive_iff.mp active
  obtain rfl := Uploads.eq_of_same_id otherMember member (sameId.trans lives.id.symm)
  have slugs : (identity other).slug = (identity row).slug := by rw [lives.identity]
  refine ⟨other, member, otherActive, ?_, lives⟩
  rw [← linked.slug, ← show other.slug = row.slug from slugs]
  exact hosts.named.getUploadBySlug member otherActive

/-- Whatever happens to the store after a link was handed out: until its upload is
deleted, a file that is served for the link has the hash of the one that was uploaded. -/
theorem link_delivers {slug : List Char}
    (run : (hostingSystem env settings).Run .empty events storage)
    (enabled : (hostingSystem env settings).enabled storage (.upload request answers))
    (link : (processFile env settings request answers storage).1 = some (.ok slug)) :
    ∃ row ∈ (processFile env settings request answers storage).2.uploads.rows,
      row.active = true ∧ row.slug = slug ∧
        ∀ later final, (hostingSystem env settings).Run
            (processFile env settings request answers storage).2 later final →
          final.uploads.isActive row.id = true →
            ∀ parser baseUrl visit served, getFile env parser baseUrl visit final slug = .file served →
              served.fileName = row.originalName ∧
                SameHash env served.content request.file.content := by
  have hosts := (hosts_empty.run run).1
  obtain ⟨row, linked⟩ := @linkedTo_of_link env settings request answers storage (SameHash env) slug
    hosts enabled link rfl fun _ _ _ _ equal => equal
  have after := (hosts.next enabled).1
  refine ⟨row, linked.member, linked.active, linked.slug, ?_⟩
  intro later final laterRun active parser baseUrl visit served answered
  obtain ⟨finalHosts, follows⟩ := after.run laterRun
  obtain ⟨current, -, -, found, lives⟩ := linked.found finalHosts follows active
  obtain ⟨name, holds⟩ := serveRow_content (getFile_file found answered)
  have names : (identity current).originalName = (identity row).originalName := by
    rw [lives.identity]
  rw [lives.id] at holds
  obtain ⟨earlier, earlierHolds, alike⟩ := follows.held row linked.member _ holds
  exact ⟨name.trans names, alike.symm.trans (linked.held earlier earlierHolds)⟩

/-! ## The second upload of a file -/

/-- The bytes of `hi`. -/
def hi : List UInt8 := [0x68, 0x69]

/-- BLAKE3 of `hi`. -/
def hiDigest : List UInt8 :=
  [0x85, 0x05, 0x2e, 0x9a, 0xab, 0x1b, 0x67, 0xb6, 0x62, 0x2d, 0x94, 0xa0, 0x84, 0x41, 0xb0, 0x9f,
    0xd5, 0xb7, 0xac, 0xa6, 0x1e, 0xe3, 0x60, 0x41, 0x6d, 0x70, 0xde, 0x5d, 0xa6, 0x7d, 0x86, 0xca]

def hiEnv : StoreEnv :=
  { plainEnv with blake3 := fun content => if content = hi then hiDigest else emptyDigest }

def hiUpload : FileRequest :=
  { uploadBy "curl".toList with file := ⟨hi, none, none, some "a.txt".toList⟩ }

/-- One day less than an empty file is kept. -/
def hiRow : Upload := newRow hiEnv hiUpload (cleanAnswers 0) "abc.txt".toList 15465600

def hiStorage : Storage where
  uploads := ⟨[hiRow], List.nodup_singleton _⟩
  files := Function.update (fun _ => none) (uuidToPath hiEnv.root .nil) (some (.file hi))

theorem hiUpload_reaches :
    ReachesSave hiEnv defaultSettings hiUpload (cleanAnswers 0) .empty hiRow where
  passes := rfl
  unique := rfl
  named := rfl
  kept := by decide +kernel
  housed := rfl
  described := rfl

theorem hiUpload_accepted :
    processFile hiEnv defaultSettings hiUpload (cleanAnswers 0) .empty =
      (some (.ok hiRow.slug), hiStorage) := by
  rw [processFile_of_reachesSave hiUpload_reaches]
  rfl

theorem hiStorage_run : (hostingSystem hiEnv defaultSettings).Run .empty
    [.upload hiUpload (cleanAnswers 0)] hiStorage := by
  have uploaded : (hostingSystem hiEnv defaultSettings).next .empty
      (.upload hiUpload (cleanAnswers 0)) = hiStorage :=
    congrArg Prod.snd hiUpload_accepted
  rw [← uploaded]
  exact .step .start ⟨nofun, List.not_mem_nil⟩

def againAnswers : Answers :=
  { cleanAnswers 1 with duplicate := some (some hiRow), uuid := firstUuid }

theorem uploadedAgain_link :
    processFile hiEnv defaultSettings hiUpload againAnswers hiStorage =
      (some (.ok hiRow.slug), hiStorage) := rfl

theorem uploadedAgain_enabled : (hostingSystem hiEnv defaultSettings).enabled hiStorage
    (.upload hiUpload againAnswers) :=
  ⟨by decide, by decide⟩

/-- The hashes are dropped after the second link is handed out. -/
def clearedStorage : Storage := { hiStorage with uploads := hiStorage.uploads.clearHashes }

theorem uploadedAgain_delivered : hiRow.active = true ∧ ∀ served : ServedFile,
    getFile hiEnv svgParser [] welcomeVisit clearedStorage hiRow.slug = .file served →
      served.fileName = hiRow.originalName ∧ SameHash hiEnv served.content hi := by
  obtain ⟨row, member, active, -, delivers⟩ := link_delivers hiStorage_run uploadedAgain_enabled
    (congrArg Prod.fst uploadedAgain_link)
  rw [uploadedAgain_link] at member
  obtain rfl := List.mem_singleton.mp member
  refine ⟨active, fun served answered => ?_⟩
  exact delivers [.maintain .clearHashes] clearedStorage (.step .start ⟨rfl, trivial⟩) (by decide)
    svgParser [] welcomeVisit served answered

end Filehost.Upload
