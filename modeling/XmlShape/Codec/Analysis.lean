import XmlShape.Analysis
import XmlShape.Codec.Schema

/-!
# Analyses as values
-/

namespace XmlShape

open Data

namespace Stats

def toValue (s : Stats) : Value :=
  .record [("elementCount", .count s.elements), ("distinctElements", .count s.distinct),
    ("repeatedElements", .count s.repeated), ("compositeElements", .count s.composite),
    ("attributeCount", .count s.attributes), ("maxDepth", .count s.maxDepth),
    ("relationshipCount", .count s.relations)]

def ofValue? (v : Value) : Option Stats := do
  let [elements, distinct, repeated, composite, attributes, maxDepth, relations] ←
    slots ["elementCount", "distinctElements", "repeatedElements", "compositeElements",
      "attributeCount", "maxDepth", "relationshipCount"] v | none
  return {
    elements := ← required Value.count? elements
    distinct := ← required Value.count? distinct
    repeated := ← required Value.count? repeated
    composite := ← required Value.count? composite
    attributes := ← required Value.count? attributes
    maxDepth := ← required Value.count? maxDepth
    relations := ← required Value.count? relations }

end Stats

namespace Analysis

def toValue (a : Analysis) : Value :=
  .record [("schema", a.schema.toValue), ("relationships", a.relations.toValue),
    ("fieldShapes", mapValue Schema.fieldsValue a.fields),
    ("recursiveElements", listValue .text a.recursive), ("stats", a.stats.toValue)]

def ofValue? (v : Value) : Option Analysis := do
  let [schema, relations, fields, recursive, stats] ←
    slots ["schema", "relationships", "fieldShapes", "recursiveElements", "stats"] v | none
  return {
    schema := ← required Schema.Model.ofValue? schema
    relations := ← required Schema.Relations.ofValue? relations
    fields := ← required (mapOf? (mapOf? Schema.FieldShape.ofValue?)) fields
    recursive := ← required (listOf? Value.text?) recursive
    stats := ← required Stats.ofValue? stats }

end Analysis
end XmlShape
