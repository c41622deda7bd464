import XmlShape.Data.Readable
import XmlShape.Document.Element

/-!
# Elements as values

An element is a record whose empty parts are left out. Attributes are pairs, so that their order
and repeated keys are kept.
-/

namespace XmlShape
namespace Element

open Data

def pairValue (pair : String × String) : Value :=
  .list [.text pair.1, .text pair.2]

/-- A field that is written unless the list in it is empty. -/
def listField (name : String) (items : List Value) : List (String × Value) :=
  if items.isEmpty then [] else [(name, .list items)]

mutual

def toValue : Element → Value
  | ⟨name, attributes, children, text⟩ =>
    .record <|
      [("name", .text name)] ++ listField "attributes" (attributes.map pairValue) ++
        listField "children" (toValues children) ++
        (if text.isEmpty then [] else [("text", .text text)])

def toValues : List Element → List Value
  | [] => []
  | e :: es => e.toValue :: toValues es

end

/-! # Reading -/

def fieldNames : List String :=
  ["name", "attributes", "children", "text"]

def pair? : Value → Option (String × String)
  | .list [.text key, .text value] => some (key, value)
  | _ => none

def assemble? (slots : List (Option Value)) (children : List Element) : Option Element :=
  match slots with
  | [name, attributes, _, text] => do
    let name ← required Value.text? name
    let attributes ← orDefault [] (Value.items? · >>= List.mapM pair?) attributes
    let text ← orDefault "" Value.text? text
    return { name, attributes, children, text }
  | _ => none

mutual

def ofValue? : Value → Option Element
  | .record fields => do
    let slots ← namedSlots fieldNames fields
    assemble? slots (← childrenOfFields? fields)
  | .list items => do
    let slots ← positionalSlots fieldNames items
    assemble? slots (← childrenOfItems? 2 items)
  | _ => none

def childrenOfFields? : List (String × Value) → Option (List Element)
  | [] => some []
  | (name, value) :: fields =>
    if name = "children" then elements? value else childrenOfFields? fields

def childrenOfItems? (position : Nat) : List Value → Option (List Element)
  | [] => some []
  | value :: values =>
    match position with
    | 0 => elements? value
    | position + 1 => childrenOfItems? position values

def elements? : Value → Option (List Element)
  | .list items => ofValues? items
  | _ => none

def ofValues? : List Value → Option (List Element)
  | [] => some []
  | value :: values => do
    let e ← ofValue? value
    return e :: (← ofValues? values)

end

end Element
end XmlShape
