import XmlShape.Analysis
import XmlShape.Text.Quoted

/-!
# Diagnostic texts

The parts of an analysis as a developer sees them: the name of a structure and its fields in
braces.
-/

namespace XmlShape
namespace Report

open Text

/-! # Notation -/

def structureText (name : String) (fields : List (String × String)) (complete : Bool) : String :=
  let shown := fields.map fun (label, text) => label ++ ": " ++ text
  let shown := if complete then shown else shown ++ [".."]
  name ++ " \x7b " ++ ", ".intercalate shown ++ " \x7d"

def listText (items : List String) : String :=
  "[" ++ ", ".intercalate items ++ "]"

def mapText (entries : List (String × String)) : String :=
  "\x7b" ++ ", ".intercalate (entries.map fun (key, text) => key ++ ": " ++ text) ++ "\x7d"

def boolText (b : Bool) : String :=
  if b then "true" else "false"

/-! # Configurations -/

def ruleText (r : Naming.Rule) : String :=
  structureText "NamingRule"
    [("pattern", quoted r.pattern), ("replacement", quoted r.replacement)] true

def namingText (s : Naming.Settings) : String :=
  let aliases := s.aliases.toList.map fun (plural, singular) => (quoted plural, quoted singular)
  structureText "NamingConfig"
    [("aliases", mapText aliases), ("rules", listText (s.rules.map ruleText)),
      ("english_suffixes", boolText s.english)] true

def scopeText : Schema.Scope → String
  | .document => "Document"
  | .parent => "Parent"

def configText (c : Config) : String :=
  structureText "InferenceConfig"
    [("max_depth", toString c.maxDepth), ("trim_text", boolText c.trimText),
      ("detect_booleans", boolText c.detectBooleans), ("frequency_scope", scopeText c.scope),
      ("naming", namingText c.naming)] true

/-! # Parts of an analysis -/

def scannerText (c : Config) : String :=
  structureText "StructureScanner" [("config", configText c)] true

def analyzerText (a : Analyzer) : String :=
  structureText "XmlStructureAnalyzer"
    [("config", configText a.config), ("custom_naming", boolText a.naming.isSome)] true

/-- The resolver of fields shows only the root of its model. -/
def resolverText (m : Schema.Model) : String :=
  structureText "FieldShapeResolver" [("root", quoted m.root)] false

def chainText (conventions : List Naming.Convention) : String :=
  structureText "ChainedNaming" [("conventions", toString conventions.length)] true

end Report
end XmlShape
