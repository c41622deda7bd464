import XmlShape.Schema.Relations

/-!
# Kinds of relations

A reader may want to see the relations of one kind only.
-/

namespace XmlShape
namespace Report

open Schema

inductive RelationKind where
  | all
  | oneToMany
  | manyToMany
  | hierarchical
deriving DecidableEq, Repr

namespace RelationKind

def name : RelationKind → String
  | all => "all"
  | oneToMany => "one-to-many"
  | manyToMany => "many-to-many"
  | hierarchical => "hierarchical"

def ofName? (name : String) : Option RelationKind :=
  [all, oneToMany, manyToMany, hierarchical].find? fun kind => kind.name = name

def select (kind : RelationKind) (r : Relations) : Relations where
  oneToMany := if kind = all ∨ kind = oneToMany then r.oneToMany else []
  manyToMany := if kind = all ∨ kind = manyToMany then r.manyToMany else []
  parentChild := if kind = all ∨ kind = hierarchical then r.parentChild else []

end RelationKind
end Report
end XmlShape
