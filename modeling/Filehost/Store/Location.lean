import Filehost.Store.FileSystem

namespace Filehost.Store

structure Uuid where
  octets : List UInt8
  size : octets.length = 16

def Uuid.nil : Uuid := ⟨List.replicate 16 0, rfl⟩

theorem Uuid.ext {left right : Uuid} (same : left.octets = right.octets) : left = right := by
  cases left
  cases right
  cases same
  rfl

instance : DecidableEq Uuid := fun _ _ =>
  decidable_of_iff _ ⟨Uuid.ext, congrArg Uuid.octets⟩

def hexEncode (bytes : List UInt8) : List Char :=
  bytes.flatMap fun byte => [Nat.digitChar (byte.toNat / 16), Nat.digitChar (byte.toNat % 16)]

def Uuid.toString (uuid : Uuid) : List Char :=
  hexEncode (uuid.octets.take 4) ++ '-' ::
    (hexEncode ((uuid.octets.drop 4).take 2) ++ '-' ::
      (hexEncode ((uuid.octets.drop 6).take 2) ++ '-' ::
        (hexEncode ((uuid.octets.drop 8).take 2) ++ '-' :: hexEncode (uuid.octets.drop 10))))

def uuidToPath (root : Path) (uuid : Uuid) : Path :=
  let name := uuid.toString
  root ++ [name.take 2, (name.drop 2).take 2, name]

theorem digitChar_injOn : ∀ left < 16, ∀ right < 16,
    Nat.digitChar left = Nat.digitChar right → left = right := by decide

theorem digitChar_ne_hyphen : ∀ digit < 16, Nat.digitChar digit ≠ '-' := by decide

theorem hexEncode_inj {left right : List UInt8} (same : hexEncode left = hexEncode right) :
    left = right := by
  induction left generalizing right with
  | nil =>
      cases right with
      | nil => rfl
      | cons byte rest => cases same
  | cons byte rest ih =>
      cases right with
      | nil => cases same
      | cons other others =>
          simp only [hexEncode, List.flatMap_cons, List.cons_append, List.nil_append,
            List.cons.injEq] at same
          obtain ⟨high, low, tail⟩ := same
          have byteLt := byte.toNat_lt
          have otherLt := other.toNat_lt
          have highSame := digitChar_injOn _ (by omega) _ (by omega) high
          have lowSame := digitChar_injOn _ (by omega) _ (by omega) low
          have equal : byte = other := UInt8.toNat_inj.mp (by omega)
          rw [equal, ih tail]

theorem hexEncode_hyphen_free (bytes : List UInt8) :
    (hexEncode bytes).filter (· ≠ '-') = hexEncode bytes := by
  apply List.filter_eq_self.mpr
  intro char member
  obtain ⟨byte, -, digit⟩ := List.mem_flatMap.mp member
  have bound := byte.toNat_lt
  simp only [List.mem_cons, List.not_mem_nil, or_false] at digit
  rcases digit with rfl | rfl
  · exact decide_eq_true (digitChar_ne_hyphen _ (by omega))
  · exact decide_eq_true (digitChar_ne_hyphen _ (by omega))

theorem hexEncode_rejoin (bytes : List UInt8) (start width : Nat) :
    hexEncode ((bytes.drop start).take width) ++ hexEncode (bytes.drop (start + width)) =
      hexEncode (bytes.drop start) := by
  rw [hexEncode, hexEncode, hexEncode, ← List.flatMap_append, ← List.drop_drop,
    List.take_append_drop]

theorem Uuid.toString_hyphen_free (uuid : Uuid) :
    uuid.toString.filter (· ≠ '-') = hexEncode uuid.octets := by
  simp only [Uuid.toString, List.filter_append, List.filter_cons, hexEncode_hyphen_free,
    ne_eq, not_true_eq_false, decide_false, Bool.false_eq_true, ↓reduceIte]
  rw [hexEncode_rejoin uuid.octets 8 2, hexEncode_rejoin uuid.octets 6 2,
    hexEncode_rejoin uuid.octets 4 2]
  exact hexEncode_rejoin uuid.octets 0 4

theorem Uuid.toString_inj {left right : Uuid} (same : left.toString = right.toString) :
    left = right := by
  refine Uuid.ext (hexEncode_inj ?_)
  rw [← left.toString_hyphen_free, ← right.toString_hyphen_free, same]

theorem uuidToPath_inj {root : Path} {left right : Uuid} :
    uuidToPath root left = uuidToPath root right ↔ left = right := by
  constructor
  · intro same
    have names := List.append_cancel_left same
    simp only [List.cons.injEq] at names
    exact Uuid.toString_inj names.2.2.1
  · intro same
    subst same
    rfl

end Filehost.Store
