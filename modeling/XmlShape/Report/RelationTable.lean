import XmlShape.Decimal.Layout
import XmlShape.Schema.Relations
import XmlShape.Text.Size

/-!
# Tables of relations

Each kind of relation has a table of its own with a title that counts its rows; a kind of which
there is none is left out.
-/

namespace XmlShape
namespace Report

open Schema

/-! # Tables -/

inductive Alignment where
  | left
  | right
deriving DecidableEq, Repr

structure Column where
  title : String
  width : Nat
  alignment : Alignment := .left

def Column.cell (c : Column) (text : String) : String :=
  match c.alignment with
  | .left => Text.padRight c.width text
  | .right => Text.padLeft c.width text

def row (columns : List Column) (texts : List String) : String :=
  "  " ++ " ".intercalate (List.zipWith Column.cell columns texts) ++ "\n"

def table (title : String) (columns : List Column) (rows : List (List String)) : String :=
  title ++ " (" ++ toString rows.length ++ "):\n" ++ row columns (columns.map (·.title)) ++
    String.join (rows.map (row columns))

/-! # Relations -/

def oneToManyColumns : List Column :=
  [{ title := "PARENT", width := 20 }, { title := "CHILD", width := 20 },
    { title := "CARDINALITY", width := 11, alignment := .right },
    { title := "CONFIDENCE", width := 10, alignment := .right }]

def oneToManyRow (r : OneToMany) : List String :=
  [r.parent, r.child, toString r.cardinality, Decimal.fixed 2 r.confidence]

def manyToManyColumns : List Column :=
  [{ title := "FIRST", width := 20 }, { title := "SECOND", width := 20 },
    { title := "LINKING", width := 20 },
    { title := "CONFIDENCE", width := 10, alignment := .right }]

def manyToManyRow (r : ManyToMany) : List String :=
  [r.first, r.second, r.linking, Decimal.fixed 2 r.confidence]

def parentChildColumns : List Column :=
  [{ title := "PARENT", width := 20 }, { title := "CHILD", width := 20 },
    { title := "DEPTH", width := 5, alignment := .right }]

def parentChildRow (r : ParentChild) : List String :=
  [r.parent, r.child, toString r.depth]

/-- All relations; the tables of one-to-many and many-to-many relations are followed by an empty
line. -/
def relationTable (r : Relations) : String :=
  let oneToMany :=
    if r.oneToMany.isEmpty then ""
    else table "One-to-many" oneToManyColumns (r.oneToMany.map oneToManyRow) ++ "\n"
  let manyToMany :=
    if r.manyToMany.isEmpty then ""
    else table "Many-to-many" manyToManyColumns (r.manyToMany.map manyToManyRow) ++ "\n"
  let parentChild :=
    if r.parentChild.isEmpty then ""
    else table "Parent-child" parentChildColumns (r.parentChild.map parentChildRow)
  let nothing := if r.isEmpty then "No relationships detected\n" else ""
  oneToMany ++ manyToMany ++ parentChild ++ nothing

end Report
end XmlShape
