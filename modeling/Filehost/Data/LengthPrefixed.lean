import Filehost.Data.BigEndian

namespace Filehost.Data.LengthPrefixed

/-! # Chunks behind their lengths

Each chunk follows its length, a number of fixed width.  A length of zero ends the stream. -/

section Encoding

variable (width : Nat)

def frame (chunk : List UInt8) : List UInt8 := BigEndian.encode width chunk.length ++ chunk

def encode (chunks : List (List UInt8)) : List UInt8 :=
  chunks.flatMap (frame width) ++ BigEndian.encode width 0

/-- The content up to the terminator and what follows it. -/
def decodeWithin : (fuel : Nat) → List UInt8 → Option (List UInt8 × List UInt8)
  | 0, _ => none
  | fuel + 1, bytes =>
      if bytes.length < width then none
      else
        let length := BigEndian.decode (bytes.take width)
        let behind := bytes.drop width
        if length = 0 then some ([], behind)
        else if behind.length < length then none
        else (decodeWithin fuel (behind.drop length)).map fun (content, left) =>
          (behind.take length ++ content, left)

/-- A chunk has at least one byte, so there are no more chunks than bytes. -/
def decode (bytes : List UInt8) : Option (List UInt8 × List UInt8) :=
  decodeWithin width (bytes.length + 1) bytes

end Encoding

variable {width : Nat}

/-- The chunk has a length that is written down exactly and does not end the stream. -/
structure Fits (width : Nat) (chunk : List UInt8) : Prop where
  nonempty : chunk ≠ []
  bound : chunk.length < 256 ^ width

theorem encode_cons (chunk : List UInt8) (chunks : List (List UInt8)) :
    encode width (chunk :: chunks) = frame width chunk ++ encode width chunks := by
  simp only [encode, List.flatMap_cons, List.append_assoc]

theorem decodeWithin_number {value : Nat} (bound : value < 256 ^ width) (fuel : Nat)
    (behind : List UInt8) :
    decodeWithin width (fuel + 1) (BigEndian.encode width value ++ behind) =
      if value = 0 then some ([], behind)
      else if behind.length < value then none
      else (decodeWithin width fuel (behind.drop value)).map fun (content, left) =>
        (behind.take value ++ content, left) := by
  have number : (BigEndian.encode width value ++ behind).take width =
      BigEndian.encode width value :=
    List.take_left' (BigEndian.encode_length width value)
  have rest : (BigEndian.encode width value ++ behind).drop width = behind :=
    List.drop_left' (BigEndian.encode_length width value)
  have enough : ¬ (BigEndian.encode width value ++ behind).length < width := by
    rw [List.length_append, BigEndian.encode_length]
    omega
  rw [decodeWithin, if_neg enough]
  simp only [number, rest, BigEndian.decode_encode bound]

theorem decodeWithin_encode {chunks : List (List UInt8)} (fit : ∀ chunk ∈ chunks, Fits width chunk)
    {fuel : Nat} (enough : chunks.length < fuel) :
    decodeWithin width fuel (encode width chunks) = some (chunks.flatten, []) := by
  induction chunks generalizing fuel with
  | nil =>
      obtain ⟨left, rfl⟩ := Nat.exists_eq_add_of_lt enough
      have bound : 0 < 256 ^ width := Nat.pow_pos (by decide)
      simpa [encode] using decodeWithin_number bound (0 + left) []
  | cons chunk chunks ih =>
      obtain ⟨left, rfl⟩ := Nat.exists_eq_add_of_lt enough
      obtain ⟨nonempty, bound⟩ := fit chunk (by simp)
      have filled : chunk.length ≠ 0 := fun empty => nonempty (List.length_eq_zero_iff.mp empty)
      have enough : chunks.length < chunks.length + 1 + left := by omega
      have rest := ih (fun other member => fit other (List.mem_cons_of_mem _ member)) enough
      rw [encode_cons, frame, List.append_assoc, List.length_cons, decodeWithin_number bound,
        if_neg filled, if_neg (by simp), List.drop_left, List.take_left, rest]
      rfl

theorem length_le_encode {chunks : List (List UInt8)} (fit : ∀ chunk ∈ chunks, Fits width chunk) :
    chunks.length ≤ (encode width chunks).length := by
  induction chunks with
  | nil => exact Nat.zero_le _
  | cons chunk chunks ih =>
      have filled : 0 < chunk.length :=
        List.length_pos_iff.mpr (fit chunk (by simp)).nonempty
      have rest := ih fun other member => fit other (List.mem_cons_of_mem _ member)
      rw [encode_cons, frame, List.length_append, List.length_append, List.length_cons]
      omega

theorem decode_encode {chunks : List (List UInt8)} (fit : ∀ chunk ∈ chunks, Fits width chunk) :
    decode width (encode width chunks) = some (chunks.flatten, []) :=
  decodeWithin_encode fit (Nat.lt_succ_of_le (length_le_encode fit))

end Filehost.Data.LengthPrefixed
