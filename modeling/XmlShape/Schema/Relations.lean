import XmlShape.Schema.Model

/-!
# Relations between elements

Three independent detectors look for relations in a model: children that repeat under one parent,
children that several parents share, and the hierarchy of parents with its depth.
-/

namespace XmlShape
namespace Schema

structure OneToMany where
  parent : String
  child : String
  /-- How many children of the name one occurrence of the parent has. -/
  cardinality : Nat
  confidence : Float
deriving Repr, Inhabited

structure ManyToMany where
  first : String
  second : String
  linking : String
  confidence : Float
deriving Repr, Inhabited

/-- A parent and its child, with the distance of the parent from the root. -/
structure ParentChild where
  parent : String
  child : String
  depth : Nat
  direct : Bool
deriving DecidableEq, Repr, Inhabited

inductive Relation where
  | oneToMany (r : OneToMany)
  | manyToMany (r : ManyToMany)
  | parentChild (r : ParentChild)
deriving Repr, Inhabited

structure Relations where
  oneToMany : List OneToMany := []
  manyToMany : List ManyToMany := []
  parentChild : List ParentChild := []
deriving Repr, Inhabited

namespace Relations

def size (r : Relations) : Nat :=
  r.oneToMany.length + r.manyToMany.length + r.parentChild.length

def isEmpty (r : Relations) : Bool :=
  r.size == 0

def toList (r : Relations) : List Relation :=
  r.oneToMany.map .oneToMany ++ r.manyToMany.map .manyToMany ++ r.parentChild.map .parentChild

end Relations

/-! # Repeated children -/

def oneToManyConfidence (cardinality : Nat) : Float :=
  let grown := 0.5 + 0.1 * Float.ofNat cardinality
  if grown < 0.9 then grown else 0.9

def repeatedChildren (r : Record) : List OneToMany :=
  (r.childCounts.toList.filter (1 < ·.2)).map fun (child, cardinality) =>
    { parent := r.name, child, cardinality, confidence := oneToManyConfidence cardinality }

def detectOneToMany (m : Model) : List OneToMany :=
  m.records.flatMap repeatedChildren

/-! # Shared children -/

/-- The parents under which each name occurs. -/
def contexts (records : List Record) : NameMap NameSet :=
  records.foldl (fun found r =>
    match r.parent with
    | some parent => found.update r.name fun parents? => (parents?.getD .empty).insert parent ()
    | none => found) .empty

def manyToManyConfidence (firstCount secondCount : Nat) : Float :=
  match decide (1 < firstCount), decide (1 < secondCount) with
  | true, true => 0.8
  | false, false => 0.4
  | _, _ => 0.6

def detectManyToMany (m : Model) : List ManyToMany :=
  (contexts m.records).toList.flatMap fun (linking, parents) =>
    parents.keys.flatMap fun first =>
      (parents.keys.filter (· ≠ first)).map fun second =>
        { first, second, linking
          confidence := manyToManyConfidence (m.frequencyOf first) (m.frequencyOf second) }

/-! # Hierarchy -/

/-- The parent of the first record of each name. -/
def firstParents (records : List Record) : NameMap (Option String) :=
  records.foldl (fun found r => found.update r.name fun parent? => parent?.getD r.parent) .empty

/-- The number of names on the way up from `name`, going from each name to its parent. The way ends
at the root, at a name that has been `seen` and where there is no parent. -/
def hops (root : String) (parents : NameMap (Option String)) (seen : List String)
    (name : String) : Nat :=
  if name = root ∨ name ∈ seen then 0
  else
    match hparent : parents.get? name with
    | some (some parent) => hops root parents (name :: seen) parent + 1
    | _ => 1
termination_by (parents.keys.filter (· ∉ seen)).length
decreasing_by
  next h => exact length_filter_not_mem_lt (NameMap.mem_keys_of_get? hparent) (not_or.1 h).2

/-- The distance of a parent from the root, each name standing for its first record. -/
def parentDepth (m : Model) (parent : String) : Nat :=
  hops m.root (firstParents m.records) [] parent

def detectParentChild (m : Model) : List ParentChild :=
  let depthOf := parentDepth m
  m.records.filterMap fun r =>
    r.parent.map fun parent => { parent, child := r.name, depth := depthOf parent, direct := true }

def detectRelations (m : Model) : Relations where
  oneToMany := detectOneToMany m
  manyToMany := detectManyToMany m
  parentChild := detectParentChild m

end Schema
end XmlShape
