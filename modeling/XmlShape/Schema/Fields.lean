import XmlShape.Naming.Convention
import XmlShape.Schema.Model

/-!
# Fields

The children of an element are its fields: a name that occurs once is a single value and a name
that repeats is a list. A child that only wraps repeated occurrences of one element is a
container, and its field is a list of that element if the naming convention takes the name of the
child for a plural of the name of the element.
-/

namespace XmlShape
namespace Schema

open Naming

structure FieldShape where
  /-- The type of a single item. -/
  type : ElementType
  isList : Bool
  /-- The name of a single item: the child itself, or the element inside a container. -/
  item : String
  container : Bool
deriving DecidableEq, Repr, Inhabited

namespace FieldShape

def single (item : String) (type : ElementType) : FieldShape :=
  { type, isList := false, item, container := false }

def list (item : String) (type : ElementType) : FieldShape :=
  { type, isList := true, item, container := false }

/-- Combines the shapes that a field has in two occurrences of its parent. A container prevails over
a plain shape; otherwise types are widened, and a list remains one. -/
def merge (a b : FieldShape) : FieldShape :=
  match a.container, b.container with
  | true, false => { a with isList := true }
  | false, true => { b with isList := true }
  | _, _ => { a with type := a.type.widen b.type, isList := a.isList || b.isList }

end FieldShape

abbrev Fields := NameMap FieldShape

def plainFields (children : List Child) : Fields :=
  children.foldl (fun fields child =>
    fields.update child.name fun
      | some shape => { shape with isList := true, type := shape.type.widen child.type }
      | none => .single child.name child.type) .empty

/-! # Containers -/

/-- The most frequent name among the children of a record, with its frequency. Of equally frequent
names the one that comes first is taken. -/
def dominantChild? (r : Record) : Option (String × Nat) :=
  let counts := r.childCounts
  r.children.foldl (fun best? child =>
    let count := (counts.get? child.name).getD 0
    match best? with
    | some (name, most) => if most < count then some (child.name, count) else some (name, most)
    | none => some (child.name, count)) none

def widenAll? : List ElementType → Option ElementType
  | [] => none
  | type :: types => some (types.foldl .widen type)

/-- The shape of the field `child` of `parent`, if the first record of this child that has children
shows it to be a container. -/
def containerShape? (m : Model) (naming : Convention) (parent child : String) :
    Option FieldShape := do
  let candidates := naming.candidates child
  if candidates.isEmpty then none
  else
    let container ← m.records.find? fun r =>
      r.name = child ∧ r.parent = some parent ∧ r.hasChildren
    let (dominant, count) ← dominantChild? container
    if candidates.contains dominant ∧ container.children.length < count * 2 then
      let type ← widenAll? ((container.children.filter (·.name = dominant)).map (·.type))
      some { type, isList := true, item := dominant, container := true }
    else none

/-! # Resolving fields -/

def resolve (m : Model) (naming : Convention) (r : Record) : Fields :=
  (plainFields r.children).mapValues fun name shape =>
    if shape.isList || !shape.type.isComposite then shape
    else (containerShape? m naming r.name name).getD shape

def mergeFields (merged fields : Fields) : Fields :=
  fields.toList.foldl (fun merged (name, shape) =>
    merged.update name fun
      | some present => present.merge shape
      | none => shape) merged

def resolveAll (m : Model) (naming : Convention) : NameMap Fields :=
  m.compositeRecords.foldl (fun resolved r =>
    let fields := resolve m naming r
    resolved.update r.name fun
      | some merged => mergeFields merged fields
      | none => fields) .empty

end Schema
end XmlShape
