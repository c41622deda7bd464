import XmlShape.Data.Toml.Word

/-!
# Nodes of TOML

A document is a table. Tables come to be by their header, by a longer header or by a key of several
parts, and how one has come to be decides how it may be added to.
-/

namespace XmlShape
namespace Data
namespace Toml

inductive Origin where
  | header
  /-- By the header of a table within it. -/
  | implied
  | dotted
  /-- In braces, which is all there is of it. -/
  | inline
deriving DecidableEq, Repr

inductive Node where
  | word (w : Word)
  | text (s : String)
  | list (items : List Node)
  | table (origin : Origin) (entries : List (String × Node))
  /-- Tables that have the same header, the latest first. -/
  | tables (items : List Node)
deriving Repr, Inhabited

abbrev Key := List String

namespace Node

def put (entries : List (String × Node)) (name : String) (n : Node) : List (String × Node) :=
  if entries.any (·.1 = name) then
    entries.map fun (other, old) => if other = name then (other, n) else (other, old)
  else entries ++ [(name, n)]

def opens (dotted : Bool) : Origin → Bool
  | .inline => false
  | .header => !dotted
  | .implied | .dotted => true

/-- Changes the node that a path leads to. Tables that are missing on the way come to be; of tables
with the same header the path leads to the latest. -/
def alter (dotted : Bool) (change : Node → Option Node) : Key → Node → Option Node
  | [], n => change n
  | name :: path, .table origin entries => do
    let next ←
      match entries.lookup name with
      | none => alter dotted change path (.table (if dotted then .dotted else .implied) [])
      | some (.table o es) =>
        if opens dotted o then alter dotted change path (.table o es) else none
      | some (.tables (last :: before)) =>
        (alter dotted change path last).map fun last => .tables (last :: before)
      | some _ => none
    some (.table origin (put entries name next))
  | _ :: _, _ => none

/-- Adds an entry whose name is new. The table must have come to be by a key of several parts
exactly if one has led to it. -/
def insert (dotted : Bool) (name : String) (value : Node) : Node → Option Node
  | .table origin entries =>
    if (origin = .dotted) = dotted ∧ (entries.lookup name).isNone then
      some (.table origin (entries ++ [(name, value)]))
    else none
  | _ => none

def add (table : Node) (key : Key) (value : Node) : Option Node :=
  match key.reverse with
  | [] => none
  | name :: path => alter true (insert (!path.isEmpty) name value) path.reverse table

def addAll (table : Node) (values : List (Key × Node)) : Option Node :=
  values.foldlM (fun table (key, value) => add table key value) table

end Node

/-! # Sections -/

structure Section where
  header : Key
  several : Bool
  values : List (Key × Node) := []

namespace Section

/-- Adds the table of a section to the table around it. Its own header may be given once; tables
within it may come before. -/
def addTo (s : Section) (name : String) : Node → Option Node
  | .table origin entries => do
    let added (n : Node) := Node.table origin (Node.put entries name n)
    let filled (entries : List (String × Node)) :=
      Node.addAll (.table .header entries) s.values.reverse
    if s.several then
      match entries.lookup name with
      | none => some (added (.tables [← filled []]))
      | some (.tables tables) => some (added (.tables ((← filled []) :: tables)))
      | some _ => none
    else
      match entries.lookup name with
      | none => some (added (← filled []))
      | some (.table .implied within) => some (added (← filled within))
      | some _ => none
  | _ => none

def place (document : Node) (s : Section) : Option Node :=
  match s.header.reverse with
  | [] => Node.addAll document s.values.reverse
  | name :: path => Node.alter false (s.addTo name) path.reverse document

end Section

def assemble? (sections : List Section) : Option Node :=
  sections.foldlM Section.place (.table .header [])

end Toml
end Data
end XmlShape
