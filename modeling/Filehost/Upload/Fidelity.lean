import Filehost.Store.Archive
import Filehost.Upload.Hosting

namespace Filehost.Store

open Filehost.Data Filehost.Database

/-! # What the archive withdraws -/

/-- What the store answered for an upload it answers still, or not any more. -/
def Withdraws (env : StoreEnv) (before after : Storage) : Prop :=
  ∀ id ∈ before.uploads.rows.map Upload.id,
    view env after id = none ∨ view env after id = view env before id

variable {env : StoreEnv} {storage : Storage} {links : Nat}

theorem Withdraws.trans {first second third : Storage} (left : Withdraws env first second)
    (right : Withdraws env second third)
    (kept : first.uploads.rows.map Upload.id ⊆ second.uploads.rows.map Upload.id) :
    Withdraws env first third := by
  intro id known
  rcases right id (kept known) with gone | same
  · exact .inl gone
  · rw [same]
    exact left id known

theorem RowsLiveOn.ids {before after : List Upload} (lives : RowsLiveOn before after) :
    before.map Upload.id ⊆ after.map Upload.id := by
  intro id known
  obtain ⟨row, member, rfl⟩ := List.mem_map.mp known
  obtain ⟨later, laterMember, livesOn⟩ := lives.later member
  exact List.mem_map.mpr ⟨later, laterMember, livesOn.id⟩

theorem Preserved.litter {id : Uuid} (preserved : Preserved env links storage)
    (fresh : id ∉ storage.uploads.rows.map Upload.id) (left : List UInt8) :
    Preserved env links (Store.litter env id left storage) ∧
      view env (Store.litter env id left storage) = view env storage := by
  have linked := preserved.honest.linked
  have back {row : Upload} {content : List UInt8} (member : row ∈ storage.uploads.rows)
      (holds : (Store.litter env id left storage).files.Holds (uuidToPath env.root row.id) content) :
      storage.files.Holds (uuidToPath env.root row.id) content := by
    obtain ⟨hops, readable⟩ := holds
    exact ⟨hops, by rwa [linked.read_litter fresh member] at readable⟩
  refine ⟨⟨preserved.honest.litter fresh left, ?_, ?_⟩, view_congr ?_ ?_⟩
  · intro first firstMember second secondMember one other oneHeld otherHeld same
    exact preserved.apart first firstMember second secondMember one other
      (back firstMember oneHeld) (back secondMember otherHeld) same
  · intro row member active
    rw [linked.read_litter fresh member]
    exact preserved.readable row member active
  · exact fun row member _ => ⟨row, member, rfl, linked.read_litter fresh member left env.hops⟩
  · exact fun row member _ => ⟨row, member, rfl⟩

theorem withdraws_chore {chore : MaintenanceEvent} (preserved : Preserved env links storage)
    (few : links + chore.links.toNat ≤ env.hops)
    (enabled : ((maintenanceSystem env).restrict (Careful env)).enabled storage chore) :
    Withdraws env storage ((maintenanceSystem env).next storage chore) := by
  intro id known
  rw [view_next preserved few enabled]
  cases chore with
  | upload row content =>
      have other : id ≠ row.id := fun same => enabled.1.2.2 (same ▸ known)
      refine .inr ?_
      change (if row.fits then Function.update (view env storage) row.id _ else view env storage) id = _
      split
      · exact Function.update_of_ne other ..
      · rfl
  | delete target now faults =>
      change (if !target.wellFormed || faults.select then _ else _ : Archive) id = none ∨
        (if !target.wellFormed || faults.select then _ else _ : Archive) id = _
      split
      · exact .inr rfl
      · dsimp only
        cases view env storage id with
        | none => exact .inl rfl
        | some archived =>
            rw [Option.filter_some]
            split
            · exact .inr rfl
            · exact .inl rfl
  | dedup faults groups => exact .inr rfl
  | rehash faults ids => exact .inr rfl
  | clearHashes => exact .inr rfl

end Filehost.Store

namespace Filehost.Upload

open Filehost.Data Filehost.Database Filehost.Http Filehost.Ip Filehost.Store

/-! # Links are answered

Where no deletion takes the file of another upload, hashes do not collide and links
are short enough to be followed, a link delivers the very bytes that were uploaded. -/

/-- `Careful`, for the file of an upload whether or not it gets stored. -/
def Attended (env : StoreEnv) (storage : Storage) : HostingEvent → Prop
  | .upload request _ =>
      ∀ row ∈ storage.uploads.rows, ∀ held, storage.files.Holds (uuidToPath env.root row.id) held →
        env.blake3 held = env.blake3 request.file.content → held = request.file.content
  | .maintain chore => Careful env storage chore

def HostingEvent.links : HostingEvent → Bool
  | .upload _ _ => false
  | .maintain chore => chore.links

def dedupRuns (events : List HostingEvent) : Nat := events.countP HostingEvent.links

/-- A visitor that gets past the checks. -/
structure Visit.Admitted (visit : Visit) : Prop where
  client : ∃ ip, visit.client = some ip ∧ visit.isIpBanned ip = some false ∧
    visit.needsChallenge ip = some false
  works : visit.lookupFails = false

variable {env : StoreEnv} {settings : Settings} {request : FileRequest} {answers : Answers}
  {storage final : Storage} {events : List HostingEvent} {links : Nat}

/-! ## One step -/

theorem preserved_uploaded {after : Storage} (preserved : Preserved env links storage)
    (few : links ≤ env.hops) (attended : Attended env storage (.upload request answers))
    (fresh : answers.uuid ∉ storage.uploads.rows.map Upload.id)
    (step : UploadStep env settings request answers storage after) :
    Preserved env links after ∧ Withdraws env storage after := by
  cases step with
  | nothing => exact ⟨preserved, fun _ _ => .inr rfl⟩
  | left content =>
      obtain ⟨kept, same⟩ := preserved.litter fresh content
      exact ⟨kept, fun id _ => .inr (congrFun same id)⟩
  | stored row reaches =>
      have enabled : ((maintenanceSystem env).restrict (Careful env)).enabled storage
          (.upload row request.file.content) := ⟨stored_enabled reaches fresh, attended⟩
      exact ⟨preserved.next few enabled, @withdraws_chore env storage links
        (.upload row request.file.content) preserved few enabled⟩

theorem preserved_hosted {event : HostingEvent} (preserved : Preserved env links storage)
    (few : links + event.links.toNat ≤ env.hops)
    (enabled : ((hostingSystem env settings).restrict (Attended env)).enabled storage event) :
    Preserved env (links + event.links.toNat) ((hostingSystem env settings).next storage event) ∧
      Withdraws env storage ((hostingSystem env settings).next storage event) := by
  cases event with
  | upload request answers =>
      exact preserved_uploaded preserved few enabled.2 enabled.1.2
        (uploadStep env settings request answers storage)
  | maintain chore =>
      have allowed : ((maintenanceSystem env).restrict (Careful env)).enabled storage chore :=
        ⟨enabled.1.2, enabled.2⟩
      exact ⟨preserved.next (by omega) allowed, withdraws_chore preserved few allowed⟩

/-! ## Runs -/

theorem dedupRuns_cons (event : HostingEvent) (events : List HostingEvent) :
    dedupRuns (event :: events) = dedupRuns events + event.links.toNat := by
  unfold dedupRuns
  cases linking : event.links <;> simp [linking]

theorem preserved_run (preserved : Preserved env links storage) (hosts : Hosts env storage)
    (run : ((hostingSystem env settings).restrict (Attended env)).Run storage events final)
    (few : links + dedupRuns events ≤ env.hops) :
    Preserved env (links + dedupRuns events) final ∧ Withdraws env storage final := by
  induction run with
  | start => exact ⟨preserved, fun _ _ => .inr rfl⟩
  | step earlier enabled ih =>
      rw [dedupRuns_cons] at few ⊢
      obtain ⟨reached, withdraws⟩ := ih (by omega)
      obtain ⟨next, withdrawsNext⟩ := preserved_hosted reached (by omega) enabled
      have kept := (hosts.run earlier.of_restrict).2.rows.ids
      exact ⟨by rwa [← Nat.add_assoc], withdraws.trans withdrawsNext kept⟩

/-- The row of a link is read as the file that was uploaded. -/
theorem LinkedTo.seen {content : List UInt8} {slug : List Char} {row : Upload}
    (linked : LinkedTo Eq env content slug storage row) (preserved : Preserved env links storage)
    (few : links ≤ env.hops) : view env storage row.id = some ⟨unhashed row, content⟩ := by
  obtain ⟨held, -, whole⟩ := preserved.content few linked.member linked.active
  rw [linked.held held ⟨_, whole⟩] at whole
  exact view_eq_some.mpr ⟨row, linked.member, rfl, linked.active, rfl, whole⟩

/-- What is seen and not withdrawn is there as it was. -/
theorem content_of_seen {content : List UInt8} {row current : Upload}
    (preserved : Preserved env links final) (few : links ≤ env.hops)
    (known : row ∈ storage.uploads.rows) (seen : view env storage row.id = some ⟨unhashed row, content⟩)
    (withdraws : Withdraws env storage final) (member : current ∈ final.uploads.rows)
    (same : current.id = row.id) (active : current.active = true) :
    final.content env current = some content := by
  obtain ⟨held, -, whole⟩ := preserved.content few member active
  have there : view env final row.id = some ⟨unhashed current, held⟩ :=
    view_eq_some.mpr ⟨current, member, same, active, rfl, whole⟩
  rcases withdraws row.id (List.mem_map_of_mem known) with gone | kept
  · rw [gone] at there
    cases there
  · rw [kept, seen] at there
    rw [whole, show content = held from congrArg Archived.content (Option.some.inj there)]

theorem getFile_of_admitted {visit : Visit} {parser : MimeParser} {baseUrl slug : List Char}
    {row : Upload} {content : List UInt8} (admitted : visit.Admitted)
    (found : storage.uploads.getUploadBySlug env.collation slug = some row)
    (readable : storage.content env row = some content) :
    getFile env parser baseUrl visit storage slug =
      .file ⟨serveMime (storedMime parser row), contentDisposition (storedMime parser row),
        row.originalName, content⟩ := by
  obtain ⟨⟨ip, client, unbanned, trusted⟩, works⟩ := admitted
  unfold Storage.content at readable
  simp only [getFile, client, unbanned, trusted, works, found, serveRow, readable, Bool.false_eq_true,
    if_false]

/-- In a run that takes care the link of an upload that was not deleted is answered,
for every visitor that is let in, with the bytes that were uploaded. -/
theorem link_answers {slug : List Char}
    (run : ((hostingSystem env settings).restrict (Attended env)).Run .empty events storage)
    (enabled : ((hostingSystem env settings).restrict (Attended env)).enabled storage
      (.upload request answers))
    (link : (processFile env settings request answers storage).1 = some (.ok slug)) :
    ∃ row ∈ (processFile env settings request answers storage).2.uploads.rows,
      row.active = true ∧ row.slug = slug ∧
        ∀ later final, ((hostingSystem env settings).restrict (Attended env)).Run
            (processFile env settings request answers storage).2 later final →
          dedupRuns events + dedupRuns later ≤ env.hops →
            final.uploads.isActive row.id = true →
              ∀ parser baseUrl visit, visit.Admitted →
                getFile env parser baseUrl visit final slug =
                  .file ⟨serveMime (storedMime parser row), contentDisposition (storedMime parser row),
                    row.originalName, request.file.content⟩ := by
  have hosts := (hosts_empty.run run.of_restrict).1
  obtain ⟨row, linked⟩ := linkedTo_of_link hosts enabled.1 link rfl enabled.2
  have after := (hosts.next enabled.1).1
  refine ⟨row, linked.member, linked.active, linked.slug, ?_⟩
  intro later final laterRun few active parser baseUrl visit admitted
  obtain ⟨finalHosts, follows⟩ := after.run laterRun.of_restrict
  obtain ⟨current, member, currentActive, found, lives⟩ := linked.found finalHosts follows active
  have before := (preserved_run preserved_empty hosts_empty run (by omega)).1
  rw [Nat.zero_add] at before
  have handed := (preserved_uploaded before (by omega) enabled.2 enabled.1.2
    (uploadStep env settings request answers storage)).1
  obtain ⟨finalKept, withdraws⟩ := preserved_run handed after laterRun few
  have readable := content_of_seen finalKept few linked.member (linked.seen handed (by omega))
    withdraws member lives.id currentActive
  have same : storedMime parser current = storedMime parser row := by
    change storedMime parser (identity current) = storedMime parser (identity row)
    rw [lives.identity]
  have name : (identity current).originalName = (identity row).originalName := by
    rw [lives.identity]
  rw [getFile_of_admitted admitted found readable, same]
  exact congrArg (fun fileName => GetResponse.file ⟨_, _, fileName, _⟩) name

theorem hiStorage_attended : ((hostingSystem hiEnv defaultSettings).restrict
    (Attended hiEnv)).Run .empty [.upload hiUpload (cleanAnswers 0)] hiStorage := by
  have uploaded : (hostingSystem hiEnv defaultSettings).next .empty
      (.upload hiUpload (cleanAnswers 0)) = hiStorage :=
    congrArg Prod.snd hiUpload_accepted
  rw [← uploaded]
  exact .step .start ⟨⟨nofun, List.not_mem_nil⟩, fun _ member => absurd member List.not_mem_nil⟩

theorem uploadedAgain_attended :
    Attended hiEnv hiStorage (.upload hiUpload againAnswers) := by
  intro row member held holds _
  obtain rfl := List.mem_singleton.mp member
  have saved : hiStorage.files (uuidToPath hiEnv.root hiRow.id) = some (.file hi) := by decide
  exact holds.unique (FileSystem.holds_of_file saved)

theorem uploadedAgain_answered :
    getFile hiEnv svgParser [] welcomeVisit clearedStorage hiRow.slug =
      .file ⟨octetStreamType, .attachment, "a.txt".toList, hi⟩ := by
  obtain ⟨row, member, -, -, answers⟩ := link_answers hiStorage_attended
    ⟨uploadedAgain_enabled, uploadedAgain_attended⟩ (congrArg Prod.fst uploadedAgain_link)
  rw [uploadedAgain_link] at member
  obtain rfl := List.mem_singleton.mp member
  exact answers [.maintain .clearHashes] clearedStorage (.step .start ⟨⟨rfl, trivial⟩, trivial⟩)
    (by decide) (by decide) svgParser [] welcomeVisit ⟨⟨_, rfl, rfl, rfl⟩, rfl⟩

end Filehost.Upload
