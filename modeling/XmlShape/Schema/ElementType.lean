/-!
# Element types

The type of an element's content. Two types seen for one name are widened to a type that holds
both.
-/

namespace XmlShape

inductive ElementType where
  | string
  /-- A whole number of 32 bits. -/
  | integer
  | double
  /-- `true` or `false`, if truth values are looked for. -/
  | boolean
  | composite
deriving DecidableEq, Repr, Inhabited

namespace ElementType

def name : ElementType → String
  | string => "string"
  | integer => "integer"
  | double => "double"
  | boolean => "boolean"
  | composite => "composite"

def ofName? (name : String) : Option ElementType :=
  [string, integer, double, boolean, composite].find? fun type => type.name = name

theorem ofName?_name (type : ElementType) : ofName? type.name = some type := by
  cases type <;> decide

def isComposite (type : ElementType) : Bool :=
  type = composite

def isPrimitive (type : ElementType) : Bool :=
  !type.isComposite

/-- A type that holds both: a composite element stays one, numbers become doubles, and any other
mixture is text. -/
def widen (a b : ElementType) : ElementType :=
  if a = b then a
  else
    match a, b with
    | composite, _ => composite
    | _, composite => composite
    | integer, double => double
    | double, integer => double
    | _, _ => string

theorem widen_comm (a b : ElementType) : widen a b = widen b a := by
  cases a <;> cases b <;> rfl

theorem widen_assoc (a b c : ElementType) : widen (widen a b) c = widen a (widen b c) := by
  cases a <;> cases b <;> cases c <;> rfl

theorem widen_self (a : ElementType) : widen a a = a := by
  cases a <;> rfl

end ElementType
end XmlShape
