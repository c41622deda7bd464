import XmlShape.Analysis
import XmlShape.Decimal.Layout
import XmlShape.Report.FieldList

/-!
# Summaries

A summary of an analysis for a reader: its statistics, how often each name occurs, the names that
repeat with their uniformity, and the fields.
-/

namespace XmlShape
namespace Report

open Schema

def labelled (label value : String) : String :=
  "  " ++ Text.padRight 19 label ++ " " ++ value ++ "\n"

def statsLines (s : Stats) : String :=
  String.join <| [("Element nodes:", s.elements), ("Distinct names:", s.distinct),
    ("Repeated names:", s.repeated), ("Composite elements:", s.composite),
    ("Attributes:", s.attributes), ("Max depth:", s.maxDepth),
    ("Relationships:", s.relations)].map fun (label, n) => labelled label (toString n)

def frequencyLine (name : String) (count : Nat) : String :=
  "  " ++ Text.padRight 30 name ++ " " ++ toString count ++ "\n"

def patternLine (p : Pattern) : String :=
  "  " ++ Text.padRight 30 p.name ++ " similarity " ++ Decimal.fixed 2 p.similarity ++ "\n"

def elementLines (name : String) (fields : Fields) : String :=
  "  " ++ name ++ "\n" ++ fieldLines 4 fields

def summary (a : Analysis) : String :=
  let recursive :=
    if a.recursive.isEmpty then ""
    else labelled "Recursive elements:" (", ".intercalate a.recursive)
  let frequency := a.schema.frequency.toList.map fun (name, count) => frequencyLine name count
  let patterns :=
    if a.schema.patterns.isEmpty then ""
    else "\nRepeating patterns:\n" ++ String.join (a.schema.patterns.map patternLine)
  let fields := a.fields.toList.map fun (name, fields) => elementLines name fields
  "Root element: " ++ a.schema.root ++ "\n" ++
    String.ofList (List.replicate 50 '=') ++ "\n" ++ statsLines a.stats ++ recursive ++
    "\nElement frequency:\n" ++ String.join frequency ++ patterns ++
    "\nFields:\n" ++ String.join fields

end Report
end XmlShape
