import XmlShape.Data.Value

/-!
# Reading values

A data format shows what a value of it may be read as: the same written value may be a text in one
place and a number in another. Structures are read from the fields of a record or, by position,
from the items of a list.
-/

namespace XmlShape
namespace Data

class Readable (ν : Type) where
  bool? : ν → Option Bool
  /-- A natural number of 64 bits. -/
  count? : ν → Option Nat
  text? : ν → Option String
  choice? : ν → Option String
  items? : ν → Option (List ν)
  fields? : ν → Option (List (String × ν))
  /-- Whether a structure that is given by position may have items after its last field. -/
  surplus : Bool := false

/-! # Values -/

namespace Value

def bool? : Value → Option Bool
  | .bool b => some b
  | _ => none

def count? : Value → Option Nat
  | .integer (.ofNat n) => if n ≤ maxCount then some n else none
  | _ => none

/-- A real number may be written as an integer. -/
def real? : Value → Option Float
  | .real x => some x
  | .integer i => some (Float.ofInt i)
  | _ => none

def text? : Value → Option String
  | .text s => some s
  | _ => none

/-- A name may also be written as the only field of a record that holds nothing. -/
def choice? : Value → Option String
  | .text s => some s
  | .record [(name, .null)] => some name
  | _ => none

def items? : Value → Option (List Value)
  | .list items => some items
  | _ => none

def fields? : Value → Option (List (String × Value))
  | .record fields => some fields
  | _ => none

end Value

instance : Readable Value where
  bool? := Value.bool?
  count? := Value.count?
  text? := Value.text?
  choice? := Value.choice?
  items? := Value.items?
  fields? := Value.fields?

/-! # Structures -/

section Structures

variable {ν α : Type}

/-- The values of the named fields of a record, none of which may be repeated. Further fields are
passed over. -/
def namedSlots (names : List String) (fields : List (String × ν)) : Option (List (Option ν)) :=
  if names.all fun name => fields.countP (·.1 == name) ≤ 1 then
    some (names.map fun name => fields.lookup name)
  else none

/-- The values of the named fields given by position. Fields at the end may be missing. -/
def positionalSlots (names : List String) (items : List ν) : Option (List (Option ν)) :=
  if items.length ≤ names.length then
    some (items.map some ++ List.replicate (names.length - items.length) none)
  else none

def slots [Readable ν] (names : List String) (v : ν) : Option (List (Option ν)) :=
  match Readable.fields? v with
  | some fields => namedSlots names fields
  | none => do
    let items ← Readable.items? v
    positionalSlots names (if Readable.surplus ν then items.take names.length else items)

def required (read : ν → Option α) (slot : Option ν) : Option α :=
  slot >>= read

def orDefault (default : α) (read : ν → Option α) (slot : Option ν) : Option α :=
  match slot with
  | some v => read v
  | none => some default

def orNothing (read : Value → Option α) (slot : Option Value) : Option (Option α) :=
  match slot with
  | none => some none
  | some .null => some none
  | some v => some <$> read v

end Structures
end Data
end XmlShape
