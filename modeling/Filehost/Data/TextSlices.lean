import Filehost.Data.PercentEncoding

namespace Filehost.Data.TextSlices

open Filehost.Data.PercentEncoding

/-! # Texts indexed by bytes

Positions count the bytes of the UTF-8 form.  A slice exists where its ends lie
between two characters. -/

def byteLength (text : List Char) : Nat := (utf8Bytes text).length

/-- What stands before and after a position. -/
def splitAtByte : Nat → List Char → Option (List Char × List Char)
  | 0, text => some ([], text)
  | _ + 1, [] => none
  | position + 1, char :: rest =>
      if char.utf8Size ≤ position + 1 then
        (splitAtByte (position + 1 - char.utf8Size) rest).map fun parts =>
          (char :: parts.1, parts.2)
      else none

def slice (text : List Char) (start stop : Nat) : Option (List Char) :=
  if start ≤ stop then
    (splitAtByte start text).bind fun parts =>
      (splitAtByte (stop - start) parts.2).map Prod.fst
  else none

def isAscii (text : List Char) : Bool := text.all fun char => char.utf8Size = 1

/-- A position before a character, or behind all of them. -/
def IsCharBoundary (text : List Char) (position : Nat) : Prop :=
  ∃ front back, text = front ++ back ∧ byteLength front = position

variable {char : Char} {rest : List Char}

@[simp] theorem byteLength_nil : byteLength [] = 0 := rfl

@[simp] theorem byteLength_cons (char : Char) (rest : List Char) :
    byteLength (char :: rest) = char.utf8Size + byteLength rest := by
  simp [byteLength, utf8Bytes]

theorem byteLength_of_isAscii {text : List Char} (ascii : isAscii text = true) :
    byteLength text = text.length := by
  induction text with
  | nil => rfl
  | cons char rest ih =>
      rw [isAscii, List.all_cons, Bool.and_eq_true, decide_eq_true_iff] at ascii
      rw [byteLength_cons, ih ascii.2, ascii.1, List.length_cons]
      omega

theorem byteLength_append (front back : List Char) :
    byteLength (front ++ back) = byteLength front + byteLength back := by
  simp [byteLength, utf8Bytes]

theorem splitAtByte_eq_some {text : List Char} {position : Nat} {parts : List Char × List Char}
    (split : splitAtByte position text = some parts) :
    text = parts.1 ++ parts.2 ∧ byteLength parts.1 = position := by
  induction text generalizing position parts with
  | nil =>
      cases position with
      | zero =>
          cases split
          exact ⟨rfl, rfl⟩
      | succ position => cases split
  | cons char rest ih =>
      cases position with
      | zero =>
          cases split
          exact ⟨rfl, rfl⟩
      | succ position =>
          rw [splitAtByte] at split
          split at split
          · obtain ⟨later, found, rfl⟩ := Option.map_eq_some_iff.mp split
            obtain ⟨same, length⟩ := ih found
            refine ⟨congrArg (char :: ·) same, ?_⟩
            rw [byteLength_cons, length]
            omega
          · cases split

theorem IsCharBoundary.le {text : List Char} {position : Nat}
    (boundary : IsCharBoundary text position) : position ≤ byteLength text := by
  obtain ⟨front, back, rfl, rfl⟩ := boundary
  rw [byteLength_append]
  exact Nat.le_add_right _ _

/-- A slice begins and ends between characters. -/
theorem slice_boundaries {text piece : List Char} {start stop : Nat}
    (found : slice text start stop = some piece) :
    start ≤ stop ∧ IsCharBoundary text start ∧ IsCharBoundary text stop := by
  unfold slice at found
  split at found
  · rename_i ordered
    obtain ⟨⟨front, back⟩, first, later⟩ := Option.bind_eq_some_iff.mp found
    obtain ⟨⟨middle, rest⟩, second, rfl⟩ := Option.map_eq_some_iff.mp later
    obtain ⟨rfl, frontLength⟩ := splitAtByte_eq_some first
    obtain ⟨same, middleLength⟩ := splitAtByte_eq_some second
    refine ⟨ordered, ⟨front, back, rfl, frontLength⟩, front ++ middle, rest, ?_, ?_⟩
    · rw [List.append_assoc, ← same]
    · rw [byteLength_append, frontLength, middleLength]
      omega
  · cases found

theorem splitAtByte_past (char : Char) (rest : List Char) (position : Nat) :
    splitAtByte (char.utf8Size + position) (char :: rest) =
      (splitAtByte position rest).map fun parts => (char :: parts.1, parts.2) := by
  obtain ⟨size, width⟩ : ∃ size, char.utf8Size = size + 1 :=
    Nat.exists_eq_succ_of_ne_zero (Nat.ne_of_gt char.utf8Size_pos)
  have shifted : char.utf8Size + position = size + position + 1 := by omega
  have within : char.utf8Size ≤ size + position + 1 := by omega
  have remaining : size + position + 1 - char.utf8Size = position := by omega
  rw [shifted, splitAtByte, if_pos within, remaining]

/-- A slice that starts behind a character is one of the rest. -/
theorem slice_past (char : Char) (rest : List Char) (start stop : Nat) :
    slice (char :: rest) (char.utf8Size + start) (char.utf8Size + stop) = slice rest start stop := by
  have width : char.utf8Size + stop - (char.utf8Size + start) = stop - start := by omega
  simp only [slice, splitAtByte_past, Nat.add_le_add_iff_left, width, Option.bind_map]
  rfl

theorem slice_two {first second : Char} (firstSize : first.utf8Size = 1)
    (secondSize : second.utf8Size = 1) :
    slice (first :: second :: rest) 0 2 = some [first, second] := by
  simp [slice, splitAtByte, firstSize, secondSize]

theorem slice_cut {first : Char} (firstSize : first.utf8Size = 1) (wide : 1 < char.utf8Size) :
    slice (first :: char :: rest) 0 2 = none := by
  simp [slice, splitAtByte, firstSize, Nat.not_le.mpr wide]

theorem slice_wide (wide : 1 < char.utf8Size) {piece : List Char}
    (found : slice (char :: rest) 0 2 = some piece) : piece = [char] := by
  by_cases two : char.utf8Size = 2
  · simpa [slice, splitAtByte, two] using found.symm
  · have inside : ¬char.utf8Size ≤ 2 := by omega
    simp [slice, splitAtByte, inside] at found

end Filehost.Data.TextSlices
