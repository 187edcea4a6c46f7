import Filehost.Database.Columns
import Filehost.Store.Location
import Mathlib.Data.List.Nodup

namespace Filehost.Database

open Filehost.Store

/-! # The table of uploads

A row is never removed.  Deleting an upload sets its timestamp. -/

structure Upload where
  id : Uuid
  uploadTimestamp : Int
  expiryTimestamp : Int
  deletedTimestamp : Option Int
  originalName : List Char
  slug : List Char
  fileSize : Int
  hash : Option (List UInt8)
  uploaderIp : List UInt8
  contentType : Option (List Char)
  userAgent : Option (List Char)
deriving DecidableEq

namespace Upload

def active (row : Upload) : Bool := row.deletedTimestamp.isNone

def fits (row : Upload) : Bool :=
  fitsVarchar 255 row.originalName && fitsVarchar 255 row.slug && fitsInt row.fileSize &&
    row.contentType.all (fitsVarchar 255) && row.userAgent.all (fitsVarchar 512)

end Upload

/-- The primary key keeps the identifiers distinct.  No other index of the table
is unique. -/
structure Uploads where
  rows : List Upload
  distinct : (rows.map Upload.id).Nodup

namespace Uploads

def empty : Uploads := ⟨[], List.nodup_nil⟩

def isSlugTaken (collation : Collation) (table : Uploads) (slug : List Char) : Bool :=
  table.rows.any fun row => collation.equal row.slug slug && row.active

def getUploadBySlug (collation : Collation) (table : Uploads) (slug : List Char) : Option Upload :=
  table.rows.find? fun row => collation.equal row.slug slug && row.active

/-- What `find_active_upload_by_hash` may answer: a newest one among the active
rows with the hash. -/
def NewestWithHash (table : Uploads) (hash : List UInt8) (row : Upload) : Prop :=
  row ∈ table.rows ∧ row.active ∧ row.hash = some hash ∧
    ∀ other ∈ table.rows, other.active → other.hash = some hash →
      other.uploadTimestamp ≤ row.uploadTimestamp

instance (table : Uploads) (hash : List UInt8) (row : Upload) :
    Decidable (table.NewestWithHash hash row) :=
  inferInstanceAs (Decidable (_ ∧ _ ∧ _ ∧ _))

def insertUploadRow (table : Uploads) (row : Upload) : Option Uploads :=
  if fresh : row.id ∉ table.rows.map Upload.id ∧ row.fits then
    some ⟨row :: table.rows, List.nodup_cons.mpr ⟨fresh.1, table.distinct⟩⟩
  else none

def markDeleted (now : Int) (row : Upload) : Upload := { row with deletedTimestamp := some now }

theorem map_ids_markDeleted (rows : List Upload) (id : Uuid) (now : Int) :
    (rows.map fun row => if row.id = id then markDeleted now row else row).map Upload.id =
      rows.map Upload.id := by
  rw [List.map_map]
  apply List.map_congr_left
  intro row _
  by_cases same : row.id = id <;> simp [same, markDeleted]

/-- `UPDATE uploads SET deleted_timestamp = NOW() WHERE id = ?`. -/
def setDeleted (table : Uploads) (id : Uuid) (now : Int) : Uploads where
  rows := table.rows.map fun row => if row.id = id then markDeleted now row else row
  distinct := by
    rw [map_ids_markDeleted]
    exact table.distinct

def isActive (table : Uploads) (id : Uuid) : Bool :=
  table.rows.any fun row => row.id = id && row.active

def isDeleted (table : Uploads) (id : Uuid) : Bool :=
  table.rows.any fun row => row.id = id && !row.active

theorem ext {left right : Uploads} (same : left.rows = right.rows) : left = right := by
  cases left
  cases right
  cases same
  rfl

theorem eq_of_same_id {table : Uploads} {left right : Upload} (leftMember : left ∈ table.rows)
    (rightMember : right ∈ table.rows) (same : left.id = right.id) : left = right :=
  List.inj_on_of_nodup_map table.distinct leftMember rightMember same

theorem insertUploadRow_rows {table after : Uploads} {row : Upload}
    (inserted : table.insertUploadRow row = some after) :
    after.rows = row :: table.rows ∧ row.id ∉ table.rows.map Upload.id := by
  unfold insertUploadRow at inserted
  split at inserted
  · rename_i fresh
    cases inserted
    exact ⟨rfl, fresh.1⟩
  · contradiction

theorem apart_of_not_taken {collation : Collation} {table : Uploads} {slug : List Char}
    (free : table.isSlugTaken collation slug = false) {other : Upload}
    (member : other ∈ table.rows) (active : other.active = true) :
    ¬collation.equal other.slug slug = true := by
  have absent := List.any_eq_false.mp free other member
  simpa [active] using absent

theorem mem_setDeleted {table : Uploads} {id : Uuid} {now : Int} {row : Upload} :
    row ∈ (table.setDeleted id now).rows ↔
      row ∈ table.rows ∧ row.id ≠ id ∨
        ∃ before ∈ table.rows, before.id = id ∧ row = markDeleted now before := by
  simp only [setDeleted, List.mem_map]
  constructor
  · intro found
    obtain ⟨before, member, rfl⟩ := found
    by_cases same : before.id = id
    · exact .inr ⟨before, member, same, if_pos same⟩
    · exact .inl (by simpa [same] using member)
  · intro found
    rcases found with ⟨member, other⟩ | ⟨before, member, same, rfl⟩
    · exact ⟨row, member, if_neg other⟩
    · exact ⟨before, member, if_pos same⟩

theorem isActive_iff {table : Uploads} {id : Uuid} :
    table.isActive id = true ↔ ∃ row ∈ table.rows, row.id = id ∧ row.active = true := by
  simp [isActive]

theorem isDeleted_iff {table : Uploads} {id : Uuid} :
    table.isDeleted id = true ↔ ∃ row ∈ table.rows, row.id = id ∧ row.active = false := by
  simp [isDeleted]

theorem isActive_setDeleted {table : Uploads} {id other : Uuid} {now : Int} :
    (table.setDeleted id now).isActive other = true ↔ other ≠ id ∧ table.isActive other = true := by
  simp only [isActive_iff, mem_setDeleted]
  constructor
  · intro found
    rcases found with ⟨row, ⟨member, different⟩ | ⟨before, -, -, rfl⟩, rfl, active⟩
    · exact ⟨different, row, member, rfl, active⟩
    · cases active
  · intro found
    obtain ⟨different, row, member, rfl, active⟩ := found
    exact ⟨row, .inl ⟨member, different⟩, rfl, active⟩

theorem isDeleted_setDeleted {table : Uploads} {id other : Uuid} {now : Int} :
    (table.setDeleted id now).isDeleted other = true ↔
      table.isDeleted other = true ∨ other = id ∧ table.isActive other = true := by
  simp only [isActive_iff, isDeleted_iff, mem_setDeleted]
  constructor
  · intro found
    rcases found with ⟨row, ⟨member, -⟩ | ⟨before, member, rfl, rfl⟩, rfl, deleted⟩
    · exact .inl ⟨row, member, rfl, deleted⟩
    · cases active : before.active with
      | false => exact .inl ⟨before, member, rfl, active⟩
      | true => exact .inr ⟨rfl, before, member, rfl, active⟩
  · intro found
    rcases found with ⟨row, member, rfl, deleted⟩ | ⟨rfl, row, member, same, -⟩
    · by_cases same : row.id = id
      · exact ⟨markDeleted now row, .inr ⟨row, member, same, rfl⟩, rfl, rfl⟩
      · exact ⟨row, .inl ⟨member, same⟩, rfl, deleted⟩
    · exact ⟨markDeleted now row, .inr ⟨row, member, same, rfl⟩, same, rfl⟩

def setAllDeleted (table : Uploads) (ids : List Uuid) (now : Int) : Uploads :=
  ids.foldl (fun table id => table.setDeleted id now) table

theorem setAllDeleted_cons (table : Uploads) (first : Uuid) (rest : List Uuid) (now : Int) :
    table.setAllDeleted (first :: rest) now =
      (table.setDeleted first now).setAllDeleted rest now := rfl

theorem mem_setAllDeleted_of_other {table : Uploads} {ids : List Uuid} {now : Int} {row : Upload}
    (member : row ∈ table.rows) (other : row.id ∉ ids) :
    row ∈ (table.setAllDeleted ids now).rows := by
  induction ids generalizing table with
  | nil => exact member
  | cons first rest ih =>
      rw [List.mem_cons, not_or] at other
      exact ih (mem_setDeleted.mpr (.inl ⟨member, other.1⟩)) other.2

theorem isActive_setAllDeleted {table : Uploads} {ids : List Uuid} {now : Int} {id : Uuid} :
    (table.setAllDeleted ids now).isActive id = true ↔ id ∉ ids ∧ table.isActive id = true := by
  induction ids generalizing table with
  | nil => simp [setAllDeleted]
  | cons first rest ih =>
      rw [setAllDeleted_cons, ih, isActive_setDeleted, List.mem_cons, not_or, and_assoc, and_left_comm]

theorem isDeleted_setAllDeleted {table : Uploads} {ids : List Uuid} {now : Int} {id : Uuid} :
    (table.setAllDeleted ids now).isDeleted id = true ↔
      table.isDeleted id = true ∨ id ∈ ids ∧ table.isActive id = true := by
  induction ids generalizing table with
  | nil => simp [setAllDeleted]
  | cons first rest ih =>
      rw [setAllDeleted_cons, ih, isDeleted_setDeleted, isActive_setDeleted, List.mem_cons]
      by_cases same : id = first
      · simp [same]
      · simp [same]

/-- Rows stay in place; those still active are unchanged. -/
def Fades (before after : Uploads) : Prop :=
  ∃ fade : Upload → Upload, after.rows = before.rows.map fade ∧
    ∀ row, (fade row).active = true → fade row = row

theorem Fades.refl (table : Uploads) : table.Fades table :=
  ⟨id, (List.map_id _).symm, fun _ _ => rfl⟩

theorem Fades.mem {before after : Uploads} (fades : before.Fades after) {row : Upload}
    (member : row ∈ after.rows) (active : row.active = true) : row ∈ before.rows := by
  obtain ⟨fade, rows, keeps⟩ := fades
  rw [rows] at member
  obtain ⟨earlier, earlierMember, rfl⟩ := List.mem_map.mp member
  rw [keeps earlier active]
  exact earlierMember

theorem Fades.trans {first second third : Uploads} (left : first.Fades second)
    (right : second.Fades third) : first.Fades third := by
  obtain ⟨fade, rows, keeps⟩ := left
  obtain ⟨fade', rows', keeps'⟩ := right
  refine ⟨fade' ∘ fade, by rw [rows', rows, List.map_map], fun row active => ?_⟩
  have later : fade' (fade row) = fade row := keeps' _ active
  exact later.trans (keeps row (later ▸ active))

theorem fades_setDeleted (table : Uploads) (id : Uuid) (now : Int) :
    table.Fades (table.setDeleted id now) := by
  refine ⟨_, rfl, fun row active => ?_⟩
  split at active
  · cases active
  · rename_i other
    exact if_neg other

theorem fades_setAllDeleted (table : Uploads) (ids : List Uuid) (now : Int) :
    table.Fades (table.setAllDeleted ids now) := by
  induction ids generalizing table with
  | nil => exact .refl table
  | cons id rest ih => exact (fades_setDeleted table id now).trans (ih _)

def SlugsDistinct (same : List Char → List Char → Prop) (table : Uploads) : Prop :=
  ∀ left ∈ table.rows, ∀ right ∈ table.rows, left.active = true → right.active = true →
    same left.slug right.slug → left = right

theorem SlugsDistinct.getUploadBySlug {collation : Collation} {table : Uploads}
    (distinct : table.SlugsDistinct fun left right => collation.equal left right = true)
    {row : Upload} (member : row ∈ table.rows) (active : row.active = true) :
    table.getUploadBySlug collation row.slug = some row := by
  unfold Uploads.getUploadBySlug
  cases found : table.rows.find? fun other => collation.equal other.slug row.slug && other.active with
  | none =>
      have absent := List.find?_eq_none.mp found row member
      simp [active] at absent
  | some other =>
      have matched := List.find?_some found
      rw [Bool.and_eq_true_iff] at matched
      rw [distinct other (List.mem_of_find?_eq_some found) row member matched.2 active matched.1]

theorem SlugsDistinct.of_fades {same : List Char → List Char → Prop} {before after : Uploads}
    (distinct : before.SlugsDistinct same) (fades : before.Fades after) :
    after.SlugsDistinct same := by
  obtain ⟨fade, rows, keeps⟩ := fades
  rw [SlugsDistinct, rows]
  intro left leftMember right rightMember leftActive rightActive equal
  obtain ⟨left, leftBefore, rfl⟩ := List.mem_map.mp leftMember
  obtain ⟨right, rightBefore, rfl⟩ := List.mem_map.mp rightMember
  have leftSame := keeps left leftActive
  have rightSame := keeps right rightActive
  rw [leftSame] at leftActive equal ⊢
  rw [rightSame] at rightActive equal ⊢
  exact distinct left leftBefore right rightBefore leftActive rightActive equal

theorem SlugsDistinct.of_insert {same : List Char → List Char → Prop} {table after : Uploads}
    {row : Upload} (distinct : table.SlugsDistinct same)
    (symmetric : ∀ left right, same left right → same right left)
    (apart : ∀ other ∈ table.rows, other.active = true → ¬same other.slug row.slug)
    (inserted : table.insertUploadRow row = some after) : after.SlugsDistinct same := by
  rw [SlugsDistinct, (insertUploadRow_rows inserted).1]
  intro left leftMember right rightMember leftActive rightActive equal
  rcases List.mem_cons.mp leftMember with rfl | leftEarlier <;>
    rcases List.mem_cons.mp rightMember with rfl | rightEarlier
  · rfl
  · exact absurd (symmetric _ _ equal) (apart right rightEarlier rightActive)
  · exact absurd equal (apart left leftEarlier leftActive)
  · exact distinct left leftEarlier right rightEarlier leftActive rightActive equal

end Uploads

end Filehost.Database
