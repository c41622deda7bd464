import XmlShape.Config
import XmlShape.Failure
import XmlShape.Schema.Fields
import XmlShape.Schema.Recursion
import XmlShape.Schema.Relations

/-!
# Analysis

A document is read and scanned, and relations, fields and recursive names are worked out from the
model; the statistics count what has been found.
-/

namespace XmlShape

open Schema

structure Stats where
  elements : Nat
  distinct : Nat
  /-- How many names occur more than once. -/
  repeated : Nat
  /-- How many names have a composite record. -/
  composite : Nat
  attributes : Nat
  maxDepth : Nat
  relations : Nat
deriving DecidableEq, Repr, Inhabited

structure Analysis where
  schema : Model
  relations : Relations
  fields : NameMap Fields
  recursive : List String
  stats : Stats
deriving Repr, Inhabited

def statsOf (m : Model) (relations : Relations) : Stats where
  elements := m.records.length
  distinct := m.frequency.size
  repeated := (m.frequency.values.filter (1 < ·)).length
  composite := (m.compositeRecords.map (·.name)).eraseDups.length
  attributes := m.records.foldl (fun total r => total + r.attributes.size) 0
  maxDepth := m.maxDepth
  relations := relations.size

/-! # Models of documents -/

def scanText (config : Config) (text : String) : Except DocumentFault Model :=
  (Document.read config.reading text).map (scan config.scanning)

def scanWithin (config : Config) (root : Element) : Except DocumentFault Model :=
  if config.depthLimit < root.depth then .error (.tooDeep root.depth config.depthLimit)
  else .ok (scan config.scanning root)

/-! # Analyses of documents -/

def analyzeModel (naming : Naming.Convention) (m : Model) : Analysis :=
  let relations := detectRelations m
  { schema := m
    relations
    fields := resolveAll m naming
    recursive := recursiveNames m
    stats := statsOf m relations }

/-- A configuration, a convention to be used in place of the one that is set down in it, and what
reads the patterns of the latter. -/
structure Analyzer where
  config : Config := {}
  naming : Option Naming.Convention := none
  reader : Regex.Reader := Regex.read?

namespace Analyzer

def convention (a : Analyzer) : Except Failure Naming.Convention :=
  match a.naming with
  | some naming => .ok naming
  | none => (a.config.naming.build a.reader).mapError .namingRule

def analyzeStructure (a : Analyzer) (text : String) : Except Failure Model :=
  (scanText a.config text).mapError .document

/-- Analyzes a text. A fault of the document is reported before one of the naming rules. -/
def analyze (a : Analyzer) (text : String) : Except Failure Analysis := do
  let m ← a.analyzeStructure text
  let naming ← a.convention
  return analyzeModel naming m

end Analyzer
end XmlShape
