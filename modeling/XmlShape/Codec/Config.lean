import XmlShape.Codec.Schema
import XmlShape.Config
import XmlShape.Data.Json.Read

/-!
# Configurations as values

A configuration can be read from any data format. Every part that is left out has its default.
-/

namespace XmlShape

open Data

/-! # Scopes -/

namespace Schema.Scope

def name : Scope → String
  | document => "document"
  | parent => "parent"

def ofName? (name : String) : Option Scope :=
  [document, parent].find? fun scope => scope.name = name

end Schema.Scope

/-! # Naming -/

namespace Naming

namespace Rule

def toValue (r : Rule) : Value :=
  .record [("pattern", .text r.pattern), ("replacement", .text r.replacement)]

def read? {ν : Type} [Readable ν] (v : ν) : Option Rule := do
  let [pattern, replacement] ← slots ["pattern", "replacement"] v | none
  return {
    pattern := ← required Readable.text? pattern
    replacement := ← required Readable.text? replacement }

end Rule

namespace Settings

def toValue (s : Settings) : Value :=
  .record [("aliases", mapValue .text s.aliases), ("rules", listValue Rule.toValue s.rules),
    ("englishSuffixes", .bool s.english)]

def read? {ν : Type} [Readable ν] (v : ν) : Option Settings := do
  let [aliases, rules, english] ← slots ["aliases", "rules", "englishSuffixes"] v | none
  return {
    aliases := ← orDefault .empty (mapOf? Readable.text?) aliases
    rules := ← orDefault [] (listOf? Rule.read?) rules
    english := ← orDefault false Readable.bool? english }

end Settings
end Naming

/-! # Configurations -/

namespace Config

def toValue (c : Config) : Value :=
  .record [("maxDepth", .count c.maxDepth), ("trimText", .bool c.trimText),
    ("detectBooleans", .bool c.detectBooleans), ("frequencyScope", .text c.scope.name),
    ("naming", c.naming.toValue)]

def read? {ν : Type} [Readable ν] (v : ν) : Option Config := do
  let [maxDepth, trimText, detectBooleans, scope, naming] ←
    slots ["maxDepth", "trimText", "detectBooleans", "frequencyScope", "naming"] v | none
  let readScope := fun v => Readable.choice? v >>= Schema.Scope.ofName?
  return {
    maxDepth := ← orDefault 256 Readable.count? maxDepth
    trimText := ← orDefault true Readable.bool? trimText
    detectBooleans := ← orDefault false Readable.bool? detectBooleans
    scope := ← orDefault .document readScope scope
    naming := ← orDefault {} Naming.Settings.read? naming }

end Config
end XmlShape
