import XmlShape.NameMap
import XmlShape.Schema.ElementType

/-!
# Schema models

The structure of a document as a flat list of records, one for each element, with a count of every
name and the patterns of the names that repeat. A model may also be put together by hand, and then
its parts need not agree with each other.
-/

namespace XmlShape
namespace Schema

structure Child where
  name : String
  type : ElementType
  parent : String
  occurrences : Nat := 1
deriving DecidableEq, Repr, Inhabited

structure Record where
  name : String
  type : ElementType
  /-- The name of the parent, which only the root lacks. -/
  parent : Option String
  children : List Child
  attributes : NameMap String
  /-- How many elements of the same name had been counted when the record was made. -/
  occurrences : Nat
  /-- The level of the element; that of the root is zero. -/
  depth : Nat
deriving Repr, Inhabited

structure Pattern where
  name : String
  elements : List String
  /-- The mean similarity of all occurrences but the first to the first. -/
  similarity : Float
  /-- The name of the parent of the first occurrence. -/
  context : Option String
  repeating : Bool
deriving Repr, Inhabited

structure Model where
  root : String
  /-- A record for each element; descendants come before ancestors and the root is last. -/
  records : List Record
  /-- How often each name occurs in the document. -/
  frequency : NameMap Nat
  /-- The repeating names in ascending order. -/
  patterns : List Pattern
deriving Repr, Inhabited

/-! # Records -/

namespace Record

def isRoot (r : Record) : Bool :=
  r.parent.isNone

def isCollection (r : Record) : Bool :=
  1 < r.occurrences

def hasChildren (r : Record) : Bool :=
  !r.children.isEmpty

end Record

def countNames (children : List Child) : NameMap Nat :=
  children.foldl (fun counts child => counts.update child.name fun n? => n?.getD 0 + 1) .empty

def Record.childCounts (r : Record) : NameMap Nat :=
  countNames r.children

/-! # Questions to a model -/

namespace Model

def recordsNamed (m : Model) (name : String) : List Record :=
  m.records.filter (·.name = name)

def firstRecord? (m : Model) (name : String) : Option Record :=
  m.records.find? (·.name = name)

/-- The last record without a parent. -/
def rootRecord? (m : Model) : Option Record :=
  m.records.reverse.find? (·.isRoot)

def frequencyOf (m : Model) (name : String) : Nat :=
  (m.frequency.get? name).getD 0

def distinctNames (m : Model) : List String :=
  m.frequency.keys

def compositeRecords (m : Model) : List Record :=
  m.records.filter (·.type.isComposite)

def maxDepth (m : Model) : Nat :=
  (m.records.map (·.depth)).foldl max 0

def pattern? (m : Model) (name : String) : Option Pattern :=
  m.patterns.find? (·.elements.contains name)

end Model
end Schema
end XmlShape
