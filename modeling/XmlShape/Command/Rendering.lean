import XmlShape.Codec.Analysis
import XmlShape.Command.Fault
import XmlShape.Data.Json.Print
import XmlShape.Data.Yaml.Print
import XmlShape.Report.FieldList
import XmlShape.Report.RelationKind
import XmlShape.Report.RelationTable
import XmlShape.Report.Summary

/-!
# Renderings of a document

What the commands show of a document: its whole analysis, its relations, or its fields.
-/

namespace XmlShape
namespace Command

open Data Report

def isAnalysisFormat (name : String) : Bool :=
  ["json", "yaml", "summary"].contains name

/-- An analysis in a format; the format is looked at last. -/
def formatAnalysis (format : String) (a : Analysis) : Except Fault String :=
  match format with
  | "json" => .ok (Json.pretty a.toValue)
  | "yaml" => .ok (Yaml.print a.toValue)
  | "summary" => .ok (summary a)
  | _ => .error (.argument (.format format))

def renderAnalysis (config : Config) (format text : String)
    (reader : Regex.Reader := Regex.read?) : Except Fault String := do
  let a ← (({ config, reader } : Analyzer).analyze text).mapError .analysis
  formatAnalysis format a

/-! # Relations -/

def isRelationFormat (name : String) : Bool :=
  ["json", "table"].contains name

def formatRelations (format : String) (r : Schema.Relations) : Except Fault String :=
  match format with
  | "json" => .ok (Json.pretty r.toValue)
  | "table" => .ok (relationTable r)
  | _ => .error (.argument (.format format))

/-- The relations of a kind. An unknown kind is reported before a fault of the document, and that
before an unknown format. -/
def renderRelations (kind format text : String) : Except Fault String := do
  let kind ←
    match RelationKind.ofName? kind with
    | some kind => .ok kind
    | none => .error (.argument (.relationKind kind))
  let m ← (scanText {} text).mapError fun fault => .analysis (.document fault)
  formatRelations format (kind.select (Schema.detectRelations m))

/-! # Fields -/

/-- The fields of one element or of every composite one. A fault of the naming rules is reported
before one of the document. -/
def renderFields (config : Config) (element? : Option String) (text : String)
    (reader : Regex.Reader := Regex.read?) : Except Fault String := do
  let naming ←
    (config.naming.build reader).mapError fun pattern => .analysis (.namingRule pattern)
  let m ← (scanText config text).mapError fun fault => .analysis (.document fault)
  match element? with
  | none => .ok (fieldSections (Schema.resolveAll m naming))
  | some name =>
    match m.firstRecord? name with
    | some r => .ok (fieldSection name (Schema.resolve m naming r))
    | none => .error (.argument (.element name))

end Command
end XmlShape
