import Filehost.Data.Numerals

namespace Filehost.Data.BigEndian

/-! Numbers in a fixed number of bytes, the most significant byte first. -/

def encode : Nat → Nat → List UInt8
  | 0, _ => []
  | width + 1, value => UInt8.ofNat (value / 256 ^ width) :: encode width value

def decode (bytes : List UInt8) : Nat := Numerals.value 256 UInt8.toNat bytes

@[simp] theorem encode_length (width value : Nat) : (encode width value).length = width := by
  induction width with
  | zero => rfl
  | succ width ih => rw [encode, List.length_cons, ih]

theorem decode_encode_mod (width value : Nat) :
    decode (encode width value) = value % 256 ^ width := by
  induction width with
  | zero => simp [encode, decode, Numerals.value, Nat.mod_one]
  | succ width ih =>
      have digit : (UInt8.ofNat (value / 256 ^ width)).toNat = value / 256 ^ width % 256 :=
        UInt8.toNat_ofNat'
      rw [encode, decode, Numerals.value_cons, ← decode, ih, encode_length, digit, pow_succ,
        Nat.mod_mul]

theorem decode_encode {width value : Nat} (fits : value < 256 ^ width) :
    decode (encode width value) = value := by
  rw [decode_encode_mod, Nat.mod_eq_of_lt fits]

theorem decode_cons (byte : UInt8) (rest : List UInt8) :
    decode (byte :: rest) = decode rest + 256 ^ rest.length * byte.toNat :=
  Numerals.value_cons 256 UInt8.toNat byte rest

theorem decode_lt (bytes : List UInt8) : decode bytes < 256 ^ bytes.length :=
  Numerals.value_lt (by decide) UInt8.toNat_lt bytes

/-- Below a multiple of what the other bytes can hold, the first byte decides. -/
theorem decode_cons_lt_iff {byte : UInt8} {rest : List UInt8} {bound : Nat} :
    decode (byte :: rest) < 256 ^ rest.length * bound ↔ byte.toNat < bound := by
  have held := decode_lt rest
  rw [decode_cons]
  constructor
  · intro small
    by_contra large
    have above := Nat.mul_le_mul_left (256 ^ rest.length) (Nat.not_lt.mp large)
    omega
  · intro small
    have below := Nat.mul_le_mul_left (256 ^ rest.length) (Nat.succ_le_of_lt small)
    rw [Nat.mul_succ] at below
    omega

theorem decode_cons_lt_iff_of_le {byte : UInt8} {rest : List UInt8} {bound : Nat}
    (narrow : bound ≤ 256 ^ rest.length) :
    decode (byte :: rest) < bound ↔ byte = 0 ∧ decode rest < bound := by
  rw [decode_cons]
  constructor
  · intro small
    have zero : byte.toNat = 0 := by
      by_contra nonzero
      have large := Nat.mul_le_mul_left (256 ^ rest.length) (Nat.pos_of_ne_zero nonzero)
      omega
    rw [zero, Nat.mul_zero, Nat.add_zero] at small
    exact ⟨UInt8.toNat_inj.mp zero, small⟩
  · rintro ⟨rfl, small⟩
    exact small

end Filehost.Data.BigEndian
