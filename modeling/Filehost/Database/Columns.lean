namespace Filehost.Database

/-! # Columns and rows

Text columns compare under a collation of the database, which the statements
take as a parameter.  Timestamps are seconds. -/

/-- Texts compare by their collation weights; `LOWER` folds case. -/
structure Collation where
  weights : List Char → List Nat
  lower : List Char → List Char

def Collation.equal (collation : Collation) (left right : List Char) : Bool :=
  collation.weights left = collation.weights right

@[simp]
theorem Collation.equal_self (collation : Collation) (text : List Char) :
    collation.equal text text = true :=
  decide_eq_true rfl

theorem Collation.equal_symm {collation : Collation} {left right : List Char}
    (same : collation.equal left right = true) : collation.equal right left = true := by
  simpa [Collation.equal, eq_comm] using same

def Collation.binary : Collation := ⟨List.map Char.toNat, id⟩

section Rows

variable {Row : Type}

/-- `INSERT IGNORE` of a row whose key `duplicates` recognises. -/
def insertIgnore (duplicates : Row → Bool) (row : Row) (rows : List Row) : List Row :=
  if rows.any duplicates then rows else rows ++ [row]

/-- `DELETE ... WHERE`, answering `none` when no row is affected. -/
def deleteWhere (selects : Row → Bool) (rows : List Row) : Option (List Row) :=
  if rows.any selects then some (rows.filter fun row => !selects row) else none

theorem deleteWhere_eq_some {selects : Row → Bool} {rows after : List Row}
    (deleted : deleteWhere selects rows = some after) :
    after = rows.filter fun row => !selects row := by
  unfold deleteWhere at deleted
  split at deleted
  · exact (Option.some.inj deleted).symm
  · contradiction

theorem deleteWhere_eq_none {selects : Row → Bool} {rows : List Row}
    (kept : deleteWhere selects rows = none) : ∀ row ∈ rows, selects row = false := by
  unfold deleteWhere at kept
  split at kept
  · contradiction
  · rename_i unmatched
    simpa using unmatched

end Rows

/-- In strict mode a value that does not fit its column makes the statement
fail. -/
def fitsVarchar (width : Nat) (text : List Char) : Bool := text.length ≤ width

/-- `as i64` keeps the low bits. -/
def asI64 (value : Nat) : Int := (BitVec.ofNat 64 value).toInt

def fitsInt (value : Int) : Bool := -2147483648 ≤ value && value ≤ 2147483647

end Filehost.Database
