import Filehost.Challenge.Pow

namespace Filehost.Challenge

open Filehost.Data.TextSlices Filehost.Util

/-! # The slices of the hex decoders

Both decoders, run so that each slice they take of their text is recorded. -/

/-- A result and the ends of the slices that were taken for it. -/
structure Sliced (α : Type u) where
  value : α
  slices : List (Nat × Nat)

instance : Monad Sliced where
  pure value := ⟨value, []⟩
  bind sliced next := ⟨(next sliced.value).value, sliced.slices ++ (next sliced.value).slices⟩

def recordSlice (take : Nat → Nat → Except Panic α) (start stop : Nat) : ExceptT Panic Sliced α :=
  ExceptT.mk ⟨take start stop, [(start, stop)]⟩

def fromHexSliced (text : List Char) : Sliced (Except Panic (Option (List UInt8))) :=
  (fromHexBy (recordSlice (index text)) text).run

def hexDecodeSliced (text : List Char) : Sliced (Except Panic (Option (List UInt8))) :=
  (hexDecodeBy (recordSlice fun start stop => .ok (slice text start stop)) text).run

section Collecting

variable {take : Nat → Nat → Except Panic α} {decode : α → Option UInt8} {starts : List Nat}

/-- One slice, decoded. -/
def readSlice (take : Nat → Nat → Except Panic α) (decode : α → Option UInt8) (start : Nat) :
    ExceptT Panic Sliced (Option UInt8) :=
  decode <$> recordSlice take start (start + 2)

theorem readSlice_run (start : Nat) : (readSlice take decode start).run =
    ⟨decode <$> take start (start + 2), [(start, start + 2)]⟩ := by
  unfold readSlice recordSlice
  cases take start (start + 2) <;> rfl

theorem run_bind_pure (recorded : ExceptT Panic Sliced α) (next : α → β) :
    (recorded >>= fun value => pure (next value)).run =
      ⟨recorded.run.value.map next, recorded.run.slices⟩ := by
  obtain ⟨value, slices⟩ := recorded
  cases value with
  | error panic => exact congrArg (Sliced.mk _) (List.append_nil slices)
  | ok value => exact congrArg (Sliced.mk _) (List.append_nil slices)

/-- No further slice is taken behind a byte that is missing. -/
theorem collect_readSlice_cons (start : Nat) (rest : List Nat) :
    (collect (readSlice take decode) (start :: rest)).run =
      match decode <$> take start (start + 2) with
      | .error panic => ⟨.error panic, [(start, start + 2)]⟩
      | .ok none => ⟨.ok none, [(start, start + 2)]⟩
      | .ok (some byte) =>
          ⟨(collect (readSlice take decode) rest).run.value.map fun bytes => bytes.map (byte :: ·),
            (start, start + 2) :: (collect (readSlice take decode) rest).run.slices⟩ := by
  change (readSlice take decode start).run >>= _ = _
  rw [readSlice_run]
  cases decode <$> take start (start + 2) with
  | error panic => rfl
  | ok found =>
      cases found with
      | none => rfl
      | some byte =>
          have later := run_bind_pure (collect (readSlice take decode) rest)
            fun bytes => bytes.map (byte :: ·)
          exact congrArg (fun later => Sliced.mk later.value ((start, start + 2) :: later.slices)) later

theorem collect_readSlice_value (starts : List Nat) :
    (collect (readSlice take decode) starts).run.value =
      collect (fun start => decode <$> take start (start + 2)) starts := by
  induction starts with
  | nil => rfl
  | cons start rest ih =>
      rw [collect_readSlice_cons, collect]
      cases decode <$> take start (start + 2) with
      | error panic => rfl
      | ok found =>
          cases found with
          | none => rfl
          | some byte =>
              dsimp only
              rw [ih]
              cases collect (fun start => decode <$> take start (start + 2)) rest <;> rfl

theorem mem_collect_readSlice {taken : Nat × Nat}
    (member : taken ∈ (collect (readSlice take decode) starts).run.slices) :
    ∃ start ∈ starts, taken = (start, start + 2) := by
  induction starts with
  | nil => cases member
  | cons start rest ih =>
      rw [collect_readSlice_cons] at member
      split at member
      · exact ⟨start, List.mem_cons_self, List.mem_singleton.mp member⟩
      · exact ⟨start, List.mem_cons_self, List.mem_singleton.mp member⟩
      · rcases List.mem_cons.mp member with same | later
        · exact ⟨start, List.mem_cons_self, same⟩
        · obtain ⟨other, earlier, same⟩ := ih later
          exact ⟨other, List.mem_cons_of_mem _ earlier, same⟩

end Collecting

theorem fromHexSliced_value (text : List Char) : (fromHexSliced text).value = fromHex text := by
  unfold fromHexSliced fromHex fromHexBy
  split
  · rfl
  · exact collect_readSlice_value _

theorem hexDecodeSliced_value (text : List Char) :
    (hexDecodeSliced text).value = .ok (hexDecode text) := by
  rw [hexDecode_eq_mapM]
  unfold hexDecodeSliced hexDecodeBy
  split
  · rfl
  · exact (collect_readSlice_value _).trans (collect_eq_mapM fun _ _ => rfl)

theorem mem_fromHexSliced {text : List Char} {taken : Nat × Nat}
    (member : taken ∈ (fromHexSliced text).slices) :
    taken.1 ≤ taken.2 ∧ IsCharBoundary text taken.1 ∧ IsCharBoundary text taken.2 := by
  unfold fromHexSliced fromHexBy at member
  split at member
  · cases member
  · rename_i accepted
    have ascii : isAscii text = true := by simpa using (not_or.mp accepted).2
    obtain ⟨start, listed, rfl⟩ := mem_collect_readSlice member
    have within := mem_pairStarts listed
    rw [byteLength_of_isAscii ascii] at within
    obtain ⟨piece, found, -⟩ := index_of_isAscii ascii (Nat.le_add_right start 2) within
    exact slice_boundaries found

theorem mem_hexDecodeSliced {text : List Char} {taken : Nat × Nat}
    (member : taken ∈ (hexDecodeSliced text).slices) :
    taken.1 ≤ taken.2 ∧ taken.2 ≤ byteLength text := by
  unfold hexDecodeSliced hexDecodeBy at member
  split at member
  · cases member
  · obtain ⟨start, listed, rfl⟩ := mem_collect_readSlice member
    exact ⟨Nat.le_add_right start 2, mem_pairStarts listed⟩

/-- On every text the decoders answer alike and neither panics.  Each slice lies within the text,
and those that are indexed end between characters. -/
theorem hex_decoders_agree (text : List Char) :
    fromHex text = .ok (hexDecode text) ∧
      ((fromHexSliced text).value = fromHex text ∧
        ∀ taken ∈ (fromHexSliced text).slices, taken.1 ≤ taken.2 ∧ taken.2 ≤ byteLength text ∧
          IsCharBoundary text taken.1 ∧ IsCharBoundary text taken.2) ∧
      ((hexDecodeSliced text).value = .ok (hexDecode text) ∧
        ∀ taken ∈ (hexDecodeSliced text).slices, taken.1 ≤ taken.2 ∧
          taken.2 ≤ byteLength text) := by
  refine ⟨fromHex_eq text, ⟨fromHexSliced_value text, fun taken member => ?_⟩,
    hexDecodeSliced_value text, fun taken member => mem_hexDecodeSliced member⟩
  obtain ⟨ordered, first, last⟩ := mem_fromHexSliced member
  exact ⟨ordered, last.le, first, last⟩

/-- A text of four bytes whose second character is cut by the first slice. -/
example : (hexDecodeSliced "aé0".toList).slices = [(0, 2)] ∧ hexDecode "aé0".toList = none := by
  decide

end Filehost.Challenge
