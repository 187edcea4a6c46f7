import Filehost.Store.FileSystem

namespace Filehost.Store

/-! # What a path holds

A path holds a content if a reader that follows enough links gets it. -/

namespace FileSystem

variable {files : FileSystem} {path target changed : Path} {content other : List UInt8}
  {hops more : Nat} {node : Option Node}

def Holds (files : FileSystem) (path : Path) (content : List UInt8) : Prop :=
  ∃ hops, files.read hops path = some content

theorem read_succ_symlink (found : files path = some (.symlink target)) (hops : Nat) :
    files.read (hops + 1) path = files.read hops target := by
  rw [read, found]

theorem read_file (found : files path = some (.file content)) (hops : Nat) :
    files.read hops path = some content := by
  rw [read, found]

/-- What a successful reader finds first. -/
theorem found_of_read (readable : files.read hops path = some content) :
    files path = some (.file content) ∨
      ∃ target fewer, hops = fewer + 1 ∧ files path = some (.symlink target) ∧
        files.read fewer target = some content := by
  cases found : files path with
  | none =>
      rw [read_of_absent found] at readable
      contradiction
  | some node =>
      cases node with
      | file held =>
          rw [read_file found] at readable
          cases readable
          exact .inl rfl
      | symlink target =>
          cases hops with
          | zero =>
              rw [read, found] at readable
              contradiction
          | succ fewer =>
              rw [read_succ_symlink found] at readable
              exact .inr ⟨target, fewer, rfl, rfl, readable⟩

theorem read_mono (readable : files.read hops path = some content) (enough : hops ≤ more) :
    files.read more path = some content := by
  induction hops generalizing path more with
  | zero =>
      rcases found_of_read readable with found | ⟨_, _, same, _⟩
      · exact read_file found more
      · cases same
  | succ hops ih =>
      rcases found_of_read readable with found | ⟨target, fewer, same, found, rest⟩
      · exact read_file found more
      · cases same
        obtain ⟨larger, rfl⟩ : ∃ larger, more = larger + 1 := ⟨more - 1, by omega⟩
        rw [read_succ_symlink found]
        exact ih rest (by omega)

theorem Holds.unique (left : files.Holds path content) (right : files.Holds path other) :
    content = other := by
  obtain ⟨hops, readable⟩ := left
  obtain ⟨more, alike⟩ := right
  have first := read_mono readable (Nat.le_max_left hops more)
  rw [read_mono alike (Nat.le_max_right hops more)] at first
  exact (Option.some.inj first).symm

theorem holds_of_file (found : files path = some (.file content)) : files.Holds path content :=
  ⟨0, read_file found 0⟩

theorem holds_of_symlink (found : files path = some (.symlink target))
    (held : files.Holds target content) : files.Holds path content := by
  obtain ⟨hops, readable⟩ := held
  exact ⟨hops + 1, by rw [read_succ_symlink found, readable]⟩

theorem linkTargets_mono (enough : hops ≤ more) :
    files.linkTargets hops path ⊆ files.linkTargets more path := by
  induction hops generalizing path more with
  | zero =>
      rw [linkTargets]
      split <;> exact List.nil_subset _
  | succ hops ih =>
      obtain ⟨larger, rfl⟩ : ∃ larger, more = larger + 1 := ⟨more - 1, by omega⟩
      rw [linkTargets, linkTargets]
      split
      · exact List.cons_subset_cons _ (ih (by omega))
      · exact List.nil_subset _

/-- What is written at a path that no link leads to is seen only there. -/
theorem read_update_of_unlinked (unlinked : ∀ link, files link ≠ some (.symlink changed))
    (apart : path ≠ changed) (hops : Nat) :
    FileSystem.read (Function.update files changed node) hops path = files.read hops path := by
  induction hops generalizing path with
  | zero => rw [read, read, Function.update_of_ne apart]
  | succ hops ih =>
      rw [read, read, Function.update_of_ne apart]
      cases found : files path with
      | none => rfl
      | some node =>
          cases node with
          | file content => rfl
          | symlink target =>
              exact ih fun same => unlinked path (same ▸ found)

/-- A reader of files of which one became a link to another file finds what it
found before, or the other file's content in place of the one's. -/
theorem read_relinked {replaced : List UInt8} (source : files changed = some (.file replaced))
    (original : files target = some (.file other)) (apart : target ≠ changed)
    (readable : FileSystem.read (Function.update files changed (some (.symlink target))) hops path =
      some content) :
    files.Holds path content ∨ content = other ∧ files.Holds path replaced := by
  induction hops generalizing path with
  | zero =>
      rcases found_of_read readable with found | ⟨_, _, same, _⟩
      · by_cases same : path = changed
        · rw [same, Function.update_self] at found
          cases found
        · rw [Function.update_of_ne same] at found
          exact .inl (holds_of_file found)
      · cases same
  | succ hops ih =>
      by_cases same : path = changed
      · subst same
        rw [read_succ_symlink (Function.update_self ..)] at readable
        rw [read_file (by rw [Function.update_of_ne apart, original])] at readable
        exact .inr ⟨(Option.some.inj readable).symm, holds_of_file source⟩
      · rcases found_of_read readable with found | ⟨next, fewer, equal, found, rest⟩
        · rw [Function.update_of_ne same] at found
          exact .inl (holds_of_file found)
        · cases equal
          rw [Function.update_of_ne same] at found
          rcases ih rest with held | ⟨equal, held⟩
          · exact .inl (holds_of_symlink found held)
          · exact .inr ⟨equal, holds_of_symlink found held⟩

theorem holds_of_without {removed : List Path} (held : (files.without removed).Holds path content) :
    files.Holds path content := by
  obtain ⟨hops, readable⟩ := held
  by_cases hit : path ∈ removed ∨ ∃ target ∈ files.linkTargets hops path, target ∈ removed
  · rw [read_without_of_hit hit] at readable
    contradiction
  · rw [not_or] at hit
    refine ⟨hops, ?_⟩
    rw [← readable]
    exact (read_without_of_disjoint hit.1 fun target member gone =>
      hit.2 ⟨target, member, gone⟩).symm

end FileSystem

end Filehost.Store
