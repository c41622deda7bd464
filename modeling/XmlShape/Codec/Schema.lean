import XmlShape.Data.Readable
import XmlShape.NameMap
import XmlShape.Schema.Fields
import XmlShape.Schema.Relations

/-!
# Schema models as values

Records, models, relations and fields are written as records whose fields keep a fixed order. What
is written reads back; beyond that a structure may also be given by position.
-/

namespace XmlShape

open Data

/-! # Lists and maps -/

namespace Data

def listValue {α : Type} (write : α → Value) (xs : List α) : Value :=
  .list (xs.map write)

def listOf? {ν α : Type} [Readable ν] (read : ν → Option α) (v : ν) : Option (List α) :=
  Readable.items? v >>= List.mapM read

def mapValue {α : Type} (write : α → Value) (m : NameMap α) : Value :=
  .record (m.toList.map fun (name, x) => (name, write x))

/-- A map; the last of several fields of one name counts. -/
def mapOf? {ν α : Type} [Readable ν] (read : ν → Option α) (v : ν) : Option (NameMap α) := do
  let fields ← Readable.fields? v
  let pairs ← fields.mapM fun (name, v) => (name, ·) <$> read v
  return .ofList pairs

end Data

/-! # Types -/

namespace ElementType

def toValue (type : ElementType) : Value :=
  .text type.name

def ofValue? (v : Value) : Option ElementType :=
  v.choice? >>= ofName?

end ElementType

namespace Schema

/-! # Records -/

namespace Child

def toValue (c : Child) : Value :=
  .record [("name", .text c.name), ("inferredType", c.type.toValue), ("parentName", .text c.parent),
    ("occurrenceCount", .count c.occurrences)]

def ofValue? (v : Value) : Option Child := do
  let [name, type, parent, occurrences] ←
    slots ["name", "inferredType", "parentName", "occurrenceCount"] v | none
  return {
    name := ← required Value.text? name
    type := ← required ElementType.ofValue? type
    parent := ← required Value.text? parent
    occurrences := ← required Value.count? occurrences }

end Child

namespace Record

def toValue (r : Record) : Value :=
  .record <|
    [("name", .text r.name), ("inferredType", r.type.toValue)] ++
    Value.optional "parentName" (r.parent.map .text) ++
    [("children", listValue Child.toValue r.children),
      ("attributes", mapValue .text r.attributes), ("occurrenceCount", .count r.occurrences),
      ("depth", .count r.depth)]

def ofValue? (v : Value) : Option Record := do
  let [name, type, parent, children, attributes, occurrences, depth] ←
    slots ["name", "inferredType", "parentName", "children", "attributes", "occurrenceCount",
      "depth"] v | none
  return {
    name := ← required Value.text? name
    type := ← required ElementType.ofValue? type
    parent := ← orNothing Value.text? parent
    children := ← required (listOf? Child.ofValue?) children
    attributes := ← required (mapOf? Value.text?) attributes
    occurrences := ← required Value.count? occurrences
    depth := ← required Value.count? depth }

end Record

/-! # Models -/

namespace Pattern

def toValue (p : Pattern) : Value :=
  .record <|
    [("patternName", .text p.name), ("elementNames", listValue .text p.elements),
      ("similarityScore", .measure p.similarity)] ++
    Value.optional "parentContext" (p.context.map .text) ++
    [("isRepeating", .bool p.repeating)]

def ofValue? (v : Value) : Option Pattern := do
  let [name, elements, similarity, context, repeating] ←
    slots ["patternName", "elementNames", "similarityScore", "parentContext", "isRepeating"] v
    | none
  return {
    name := ← required Value.text? name
    elements := ← required (listOf? Value.text?) elements
    similarity := ← required Value.real? similarity
    context := ← orNothing Value.text? context
    repeating := ← required Value.bool? repeating }

end Pattern

namespace Model

def toValue (m : Model) : Value :=
  .record [("rootElementName", .text m.root), ("elements", listValue Record.toValue m.records),
    ("elementFrequency", mapValue .count m.frequency),
    ("patterns", listValue Pattern.toValue m.patterns)]

def ofValue? (v : Value) : Option Model := do
  let [root, records, frequency, patterns] ←
    slots ["rootElementName", "elements", "elementFrequency", "patterns"] v | none
  return {
    root := ← required Value.text? root
    records := ← required (listOf? Record.ofValue?) records
    frequency := ← required (mapOf? Value.count?) frequency
    patterns := ← required (listOf? Pattern.ofValue?) patterns }

end Model

/-! # Relations -/

namespace OneToMany

def toFields (r : OneToMany) : List (String × Value) :=
  [("parentElement", .text r.parent), ("childElement", .text r.child),
    ("cardinality", .count r.cardinality), ("confidence", .measure r.confidence)]

def toValue (r : OneToMany) : Value :=
  .record r.toFields

def ofValue? (v : Value) : Option OneToMany := do
  let [parent, child, cardinality, confidence] ←
    slots ["parentElement", "childElement", "cardinality", "confidence"] v | none
  return {
    parent := ← required Value.text? parent
    child := ← required Value.text? child
    cardinality := ← required Value.count? cardinality
    confidence := ← required Value.real? confidence }

end OneToMany

namespace ManyToMany

def toFields (r : ManyToMany) : List (String × Value) :=
  [("firstElement", .text r.first), ("secondElement", .text r.second),
    ("linkingElement", .text r.linking), ("confidence", .measure r.confidence)]

def toValue (r : ManyToMany) : Value :=
  .record r.toFields

def ofValue? (v : Value) : Option ManyToMany := do
  let [first, second, linking, confidence] ←
    slots ["firstElement", "secondElement", "linkingElement", "confidence"] v | none
  return {
    first := ← required Value.text? first
    second := ← required Value.text? second
    linking := ← required Value.text? linking
    confidence := ← required Value.real? confidence }

end ManyToMany

namespace ParentChild

def toFields (r : ParentChild) : List (String × Value) :=
  [("parentElement", .text r.parent), ("childElement", .text r.child), ("depth", .count r.depth),
    ("isDirectChild", .bool r.direct)]

def toValue (r : ParentChild) : Value :=
  .record r.toFields

def ofValue? (v : Value) : Option ParentChild := do
  let [parent, child, depth, direct] ←
    slots ["parentElement", "childElement", "depth", "isDirectChild"] v | none
  return {
    parent := ← required Value.text? parent
    child := ← required Value.text? child
    depth := ← required Value.count? depth
    direct := ← required Value.bool? direct }

end ParentChild

namespace Relation

/-- The kind of a relation stands beside its fields. -/
def toValue : Relation → Value
  | .oneToMany r => .record (("kind", .text "oneToMany") :: r.toFields)
  | .manyToMany r => .record (("kind", .text "manyToMany") :: r.toFields)
  | .parentChild r => .record (("kind", .text "parentChild") :: r.toFields)

def ofKind? (kind : String) (v : Value) : Option Relation :=
  match kind with
  | "oneToMany" => .oneToMany <$> OneToMany.ofValue? v
  | "manyToMany" => .manyToMany <$> ManyToMany.ofValue? v
  | "parentChild" => .parentChild <$> ParentChild.ofValue? v
  | _ => none

/-- The kind is a field of a record or the first item of a list. -/
def ofValue? : Value → Option Relation
  | .record fields => do
    let [kind] ← namedSlots ["kind"] fields | none
    ofKind? (← required Value.text? kind) (.record (fields.filter (·.1 ≠ "kind")))
  | .list (kind :: items) => do ofKind? (← kind.text?) (.list items)
  | _ => none

end Relation

namespace Relations

def toValue (r : Relations) : Value :=
  .record [("oneToMany", listValue OneToMany.toValue r.oneToMany),
    ("manyToMany", listValue ManyToMany.toValue r.manyToMany),
    ("parentChild", listValue ParentChild.toValue r.parentChild)]

def ofValue? (v : Value) : Option Relations := do
  let [oneToMany, manyToMany, parentChild] ←
    slots ["oneToMany", "manyToMany", "parentChild"] v | none
  return {
    oneToMany := ← required (listOf? OneToMany.ofValue?) oneToMany
    manyToMany := ← required (listOf? ManyToMany.ofValue?) manyToMany
    parentChild := ← required (listOf? ParentChild.ofValue?) parentChild }

end Relations

/-! # Fields -/

namespace FieldShape

def toValue (s : FieldShape) : Value :=
  .record [("elementType", s.type.toValue), ("isList", .bool s.isList),
    ("itemElement", .text s.item), ("container", .bool s.container)]

def ofValue? (v : Value) : Option FieldShape := do
  let [type, isList, item, container] ←
    slots ["elementType", "isList", "itemElement", "container"] v | none
  return {
    type := ← required ElementType.ofValue? type
    isList := ← required Value.bool? isList
    item := ← required Value.text? item
    container := ← required Value.bool? container }

end FieldShape

def fieldsValue (fields : Fields) : Value :=
  mapValue FieldShape.toValue fields

end Schema
end XmlShape
