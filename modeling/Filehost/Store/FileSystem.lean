import Mathlib.Logic.Function.Basic

namespace Filehost.Store

/-! # The files below the store

A path is the list of its components.  Directories are left out: what is kept
is which paths hold a regular file and which a symbolic link. -/

abbrev Path := List (List Char)

inductive Node where
  | file (content : List UInt8)
  | symlink (target : Path)
deriving DecidableEq

abbrev FileSystem := Path → Option Node

def Path.withFileName (path : Path) (name : List Char) : Path := path.dropLast ++ [name]

def Path.fileName (path : Path) : List Char := path.getLastD []

namespace FileSystem

/-- `std::fs::remove_file`: a link goes, not what it points to. -/
def removeFile (files : FileSystem) (path : Path) : Option FileSystem :=
  if (files path).isSome then some (Function.update files path none) else none

def rename (files : FileSystem) (source destination : Path) : Option FileSystem :=
  match files source with
  | none => none
  | some node => some (Function.update (Function.update files source none) destination (some node))

def read (files : FileSystem) : Nat → Path → Option (List UInt8)
  | hops, path =>
      match files path with
      | none => none
      | some (.file content) => some content
      | some (.symlink target) =>
          match hops with
          | 0 => none
          | hops + 1 => files.read hops target

def linkTargets (files : FileSystem) : Nat → Path → List Path
  | hops, path =>
      match files path with
      | some (.symlink target) =>
          match hops with
          | 0 => []
          | hops + 1 => target :: files.linkTargets hops target
      | _ => []

def without (files : FileSystem) (removed : List Path) : FileSystem := fun path =>
  if path ∈ removed then none else files path

variable {files : FileSystem} {removed : List Path} {path : Path}

theorem without_nil : files.without [] = files := by
  funext path
  simp [without]

theorem without_of_not_mem (kept : path ∉ removed) : files.without removed path = files path :=
  if_neg kept

theorem without_of_mem (gone : path ∈ removed) : files.without removed path = none :=
  if_pos gone

theorem read_of_absent (absent : files path = none) (hops : Nat) : files.read hops path = none := by
  rw [read, absent]

theorem read_without_of_disjoint (kept : path ∉ removed) {hops : Nat}
    (apart : ∀ target ∈ files.linkTargets hops path, target ∉ removed) :
    (files.without removed).read hops path = files.read hops path := by
  induction hops generalizing path with
  | zero =>
      rw [read, read, without_of_not_mem kept]
  | succ hops ih =>
      rw [read, read, without_of_not_mem kept]
      cases found : files path with
      | none => rfl
      | some node =>
          cases node with
          | file content => rfl
          | symlink target =>
              rw [linkTargets, found] at apart
              exact ih (apart target List.mem_cons_self)
                fun other member => apart other (List.mem_cons_of_mem _ member)

theorem read_without_of_hit {hops : Nat}
    (hit : path ∈ removed ∨ ∃ target ∈ files.linkTargets hops path, target ∈ removed) :
    (files.without removed).read hops path = none := by
  induction hops generalizing path with
  | zero =>
      rcases hit with gone | ⟨target, member, -⟩
      · exact read_of_absent (without_of_mem gone) 0
      · rw [linkTargets] at member
        split at member <;> cases member
  | succ hops ih =>
      by_cases gone : path ∈ removed
      · exact read_of_absent (without_of_mem gone) _
      · obtain ⟨target, member, hit⟩ := hit.resolve_left gone
        rw [linkTargets] at member
        rw [read, without_of_not_mem gone]
        cases found : files path with
        | none => rfl
        | some node =>
            cases node with
            | file content =>
                rw [found] at member
                cases member
            | symlink next =>
                rw [found] at member
                apply ih
                rcases List.mem_cons.mp member with rfl | later
                · exact .inl hit
                · exact .inr ⟨target, later, hit⟩

/-- A reader keeps its content exactly when it has none or no removed path
lies on its way. -/
theorem read_without_eq_iff (kept : path ∉ removed) {hops : Nat} :
    (files.without removed).read hops path = files.read hops path ↔
      files.read hops path = none ∨ ∀ target ∈ files.linkTargets hops path, target ∉ removed := by
  by_cases hit : ∃ target ∈ files.linkTargets hops path, target ∈ removed
  · rw [read_without_of_hit (.inr hit), eq_comm]
    refine ⟨.inl, fun cases => cases.elim id fun apart => ?_⟩
    obtain ⟨target, member, gone⟩ := hit
    exact absurd gone (apart target member)
  · have apart : ∀ target ∈ files.linkTargets hops path, target ∉ removed :=
      fun target member gone => hit ⟨target, member, gone⟩
    exact ⟨fun _ => .inr apart, fun _ => read_without_of_disjoint kept apart⟩

end FileSystem

end Filehost.Store
