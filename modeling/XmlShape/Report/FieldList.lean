import XmlShape.Schema.Fields
import XmlShape.Text.Size

/-!
# Lists of fields

The fields of an element, a line each: the name, the type, and for a container the element that it
holds.
-/

namespace XmlShape
namespace Report

open Schema

def typeText (shape : FieldShape) : String :=
  if shape.isList then "list<" ++ shape.type.name ++ ">" else shape.type.name

def containerText (shape : FieldShape) : String :=
  if shape.container then " (container of " ++ shape.item ++ ")" else ""

def fieldLine (indent : Nat) (name : String) (shape : FieldShape) : String :=
  Text.padRight indent "" ++ Text.padRight 24 name ++ " " ++ typeText shape ++
    containerText shape ++ "\n"

def fieldLines (indent : Nat) (fields : Fields) : String :=
  String.join (fields.toList.map fun (name, shape) => fieldLine indent name shape)

/-! # Elements -/

def fieldSection (name : String) (fields : Fields) : String :=
  name ++ "\n" ++ fieldLines 2 fields

def fieldSections (elements : NameMap Fields) : String :=
  String.join (elements.toList.map fun (name, fields) => fieldSection name fields)

end Report
end XmlShape
