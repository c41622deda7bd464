import XmlShape.Decimal.Binary

/-!
# Values

The values that documents of data carry. An integer is kept apart from a real number, and a record
keeps its fields in the order they are written, repeated ones included.
-/

namespace XmlShape
namespace Data

inductive Value where
  | null
  | bool (b : Bool)
  | integer (i : Int)
  | real (x : Float)
  | text (s : String)
  | list (items : List Value)
  | record (fields : List (String × Value))
deriving Inhabited, Repr

def maxCount : Nat := Nat.pow 2 64 - 1

namespace Value

def count (n : Nat) : Value :=
  .integer n

/-- A measured number; only a finite one has a value of its own. -/
def measure (x : Float) : Value :=
  if Decimal.isFinite x then .real x else .null

def optional (name : String) (value? : Option Value) : List (String × Value) :=
  match value? with
  | some value => [(name, value)]
  | none => []

end Value
end Data
end XmlShape
