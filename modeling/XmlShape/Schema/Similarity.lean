import XmlShape.Schema.Model

/-!
# Similarity

Two records are compared in four respects, and their similarity is the share of those in which
they agree. The mean over a group of records is computed in an arithmetic of one's choice, given
by its counts: a model carries doubles.
-/

namespace XmlShape
namespace Schema

/-- In how many of name, type, number of children and number of attributes two records agree. -/
def agreement (a b : Record) : Nat :=
  [a.name == b.name, a.type == b.type, a.children.length == b.children.length,
   a.attributes.size == b.attributes.size].count true

section Scores

variable {α : Type} [Add α] [Div α] (ofCount : Nat → α)

def similarityIn (a b : Record) : α :=
  ofCount (agreement a b) / ofCount 4

/-- The mean similarity of all records of a group but the first to the first. A group of fewer
than two records is uniform. -/
def uniformityIn : List Record → α
  | [] => ofCount 1
  | [_] => ofCount 1
  | first :: rest =>
    (rest.map (similarityIn ofCount first)).foldl (· + ·) (ofCount 0) / ofCount rest.length

end Scores

def similarity (a b : Record) : Float :=
  similarityIn Float.ofNat a b

def uniformity (group : List Record) : Float :=
  uniformityIn Float.ofNat group

def repeatingPatterns (records : List Record) (frequency : NameMap Nat) : List Pattern :=
  (frequency.toList.filter (1 < ·.2)).filterMap fun (name, _) =>
    match records.filter (·.name = name) with
    | [] => none
    | first :: rest =>
      some {
        name := name ++ "_pattern"
        elements := [name]
        similarity := uniformity (first :: rest)
        context := first.parent
        repeating := true }

end Schema
end XmlShape
