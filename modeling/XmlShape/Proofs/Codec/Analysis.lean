import XmlShape.Codec.Analysis
import XmlShape.Codec.Config
import XmlShape.Proofs.Codec.Element
import XmlShape.Proofs.Codec.Schema

/-!
# Analyses and configurations read back

Whatever a document is turned into, and the configuration it is turned into it with, can be stored
as a value and had back unchanged. For a configuration this means that no default takes the place
of what has been written.
-/

namespace XmlShape

open Data

/-!
# Analyses
-/

def Stats.Writable (s : Stats) : Prop :=
  ∀ n ∈ [s.elements, s.distinct, s.repeated, s.composite, s.attributes, s.maxDepth, s.relations],
    n ≤ maxCount

theorem Stats.ofValue?_toValue {s : Stats} (h : s.Writable) : ofValue? s.toValue = some s := by
  have hslots : slots ["elementCount", "distinctElements", "repeatedElements",
      "compositeElements", "attributeCount", "maxDepth", "relationshipCount"] s.toValue =
        some [some (.count s.elements), some (.count s.distinct), some (.count s.repeated),
          some (.count s.composite), some (.count s.attributes), some (.count s.maxDepth),
          some (.count s.relations)] :=
    slots_present (by decide) rfl rfl
  simp only [Writable, List.forall_mem_cons] at h
  obtain ⟨helements, hdistinct, hrepeated, hcomposite, hattributes, hdepth, hrelations, _⟩ := h
  simp [ofValue?, hslots, count?_count helements, count?_count hdistinct, count?_count hrepeated,
    count?_count hcomposite, count?_count hattributes, count?_count hdepth,
    count?_count hrelations]

structure Analysis.Writable (a : Analysis) : Prop where
  schema : a.schema.Writable
  relations : a.relations.Writable
  stats : a.stats.Writable

theorem Analysis.ofValue?_toValue {a : Analysis} (h : a.Writable) :
    ofValue? a.toValue = some a := by
  have hslots : slots ["schema", "relationships", "fieldShapes", "recursiveElements", "stats"]
      a.toValue = some [some a.schema.toValue, some a.relations.toValue,
        some (mapValue Schema.fieldsValue a.fields), some (listValue .text a.recursive),
        some a.stats.toValue] :=
    slots_present (by decide) rfl rfl
  have hfields : mapOf? (mapOf? Schema.FieldShape.ofValue?)
      (mapValue Schema.fieldsValue a.fields) = some a.fields :=
    mapOf?_mapValue fun fields _ => Schema.mapOf?_fieldsValue fields
  have hrecursive : listOf? Value.text? (listValue .text a.recursive) = some a.recursive :=
    listOf?_listValue fun _ _ => rfl
  simp [ofValue?, hslots, Schema.Model.ofValue?_toValue h.schema,
    Schema.Relations.ofValue?_toValue h.relations, hfields, hrecursive,
    Stats.ofValue?_toValue h.stats]

/-!
# Configurations
-/

theorem Schema.Scope.ofName?_name (scope : Scope) : ofName? scope.name = some scope := by
  cases scope <;> decide

namespace Naming

theorem Rule.read?_toValue (r : Rule) : read? r.toValue = some r := by
  have hslots : slots ["pattern", "replacement"] r.toValue =
      some [some (.text r.pattern), some (.text r.replacement)] :=
    slots_present (by decide) rfl rfl
  rw [read?, hslots]
  rfl

theorem Settings.read?_toValue (s : Settings) : read? s.toValue = some s := by
  have hslots : slots ["aliases", "rules", "englishSuffixes"] s.toValue =
      some [some (mapValue .text s.aliases), some (listValue Rule.toValue s.rules),
        some (.bool s.english)] :=
    slots_present (by decide) rfl rfl
  have haliases : mapOf? Readable.text? (mapValue .text s.aliases) = some s.aliases :=
    mapOf?_mapValue fun _ _ => rfl
  have hrules : listOf? Rule.read? (listValue Rule.toValue s.rules) = some s.rules :=
    listOf?_listValue fun r _ => Rule.read?_toValue r
  have henglish : Readable.bool? (Value.bool s.english) = some s.english := rfl
  simp [read?, hslots, haliases, hrules, henglish]

end Naming

def Config.Writable (c : Config) : Prop :=
  c.maxDepth ≤ maxCount

theorem Config.read?_toValue {c : Config} (h : c.Writable) : read? c.toValue = some c := by
  have hslots : slots ["maxDepth", "trimText", "detectBooleans", "frequencyScope", "naming"]
      c.toValue = some [some (.count c.maxDepth), some (.bool c.trimText),
        some (.bool c.detectBooleans), some (.text c.scope.name), some c.naming.toValue] :=
    slots_present (by decide) rfl rfl
  have hdepth : Readable.count? (Value.count c.maxDepth) = some c.maxDepth := count?_count h
  have htrim : Readable.bool? (Value.bool c.trimText) = some c.trimText := rfl
  have hbooleans : Readable.bool? (Value.bool c.detectBooleans) = some c.detectBooleans := rfl
  have hscope : Readable.choice? (Value.text c.scope.name) = some c.scope.name := rfl
  simp [read?, hslots, hdepth, htrim, hbooleans, hscope, Schema.Scope.ofName?_name,
    Naming.Settings.read?_toValue]

/-!
# Everything that is written
-/

/-- What is written reads back unchanged: trees without exception, and all else whose counts are of
64 bits and whose measures are finite. -/
theorem written_reads_back :
    (∀ e : Element, Element.ofValue? e.toValue = some e) ∧
    (∀ m : Schema.Model, m.Writable → Schema.Model.ofValue? m.toValue = some m) ∧
    (∀ r : Schema.Relations, r.Writable → Schema.Relations.ofValue? r.toValue = some r) ∧
    (∀ r : Schema.Relation, r.Writable → Schema.Relation.ofValue? r.toValue = some r) ∧
    (∀ a : Analysis, a.Writable → Analysis.ofValue? a.toValue = some a) ∧
    (∀ c : Config, c.Writable → Config.read? c.toValue = some c) :=
  ⟨Element.ofValue?_toValue, fun _ => Schema.Model.ofValue?_toValue,
    fun _ => Schema.Relations.ofValue?_toValue, fun _ => Schema.Relation.ofValue?_toValue,
    fun _ => Analysis.ofValue?_toValue, fun _ => Config.read?_toValue⟩

def storedAnalysis : Analysis where
  schema :=
    { root := "shelf"
      records := [⟨"book", .string, some "shelf", [], .ofList [("id", "1")], 1, 1⟩,
        ⟨"shelf", .composite, none, [⟨"book", .string, "shelf", 1⟩], .empty, 1, 0⟩]
      frequency := .ofList [("book", 1), ("shelf", 1)]
      patterns := [⟨"book", ["book"], 0.75, some "shelf", true⟩, ⟨"box", [], 0.5, none, false⟩] }
  relations :=
    { oneToMany := [⟨"shelf", "book", 2, 0.7⟩]
      manyToMany := [⟨"shelf", "box", "book", 0.4⟩]
      parentChild := [⟨"shelf", "book", 0, true⟩] }
  fields := .ofList [("shelf", .ofList [("book", .list "book" .string)])]
  recursive := ["shelf"]
  stats := ⟨2, 2, 0, 1, 1, 1, 3⟩

theorem writable_storedAnalysis : storedAnalysis.Writable := by
  constructor
  · constructor
    · intro r hr
      simp only [storedAnalysis, List.mem_cons, List.not_mem_nil, or_false] at hr
      rcases hr with rfl | rfl
      · exact ⟨fun c hc => absurd hc List.not_mem_nil, by decide, by decide⟩
      · refine ⟨?_, by decide, by decide⟩
        intro c hc
        rw [List.mem_singleton.mp hc, Schema.Child.Writable]
        decide
    · have hall : storedAnalysis.schema.frequency.values.all (· ≤ maxCount) = true := by decide
      simpa using hall
    · have hall : storedAnalysis.schema.patterns.all (Decimal.isFinite ·.similarity) = true := by
        decide
      simpa [Schema.Pattern.Writable] using hall
  · constructor
    · intro r hr
      rw [List.mem_singleton.mp hr]
      exact ⟨by decide, by decide⟩
    · intro r hr
      rw [List.mem_singleton.mp hr, Schema.ManyToMany.Writable]
      decide
    · intro r hr
      rw [List.mem_singleton.mp hr, Schema.ParentChild.Writable]
      decide
  · unfold Stats.Writable
    decide

theorem written_reads_back_stored :
    storedAnalysis.Writable ∧ Analysis.ofValue? storedAnalysis.toValue = some storedAnalysis ∧
    Schema.Model.ofValue? storedAnalysis.schema.toValue = some storedAnalysis.schema ∧
    Schema.Relations.ofValue? storedAnalysis.relations.toValue = some storedAnalysis.relations ∧
    Schema.Relation.ofValue? (Schema.Relation.manyToMany ⟨"a", "b", "c", 0.4⟩).toValue =
      some (.manyToMany ⟨"a", "b", "c", 0.4⟩) ∧
    Config.read? ({ maxDepth := 0, naming := { english := true } } : Config).toValue =
      some { maxDepth := 0, naming := { english := true } } ∧
    Element.ofValue? (Element.mk "a" [("k", "v"), ("k", "w")] [⟨"b", [], [], "x"⟩] "").toValue =
      some ⟨"a", [("k", "v"), ("k", "w")], [⟨"b", [], [], "x"⟩], ""⟩ := by
  have h := writable_storedAnalysis
  obtain ⟨helement, hmodel, hrelations, hrelation, hanalysis, hconfig⟩ := written_reads_back
  have hmanyToMany : (Schema.Relation.manyToMany ⟨"a", "b", "c", 0.4⟩).Writable := by
    rw [Schema.Relation.Writable, Schema.ManyToMany.Writable]
    decide
  have hdepth : ({ maxDepth := 0, naming := { english := true } } : Config).Writable := by
    rw [Config.Writable]
    exact Nat.zero_le maxCount
  exact ⟨h, hanalysis _ h, hmodel _ h.schema, hrelations _ h.relations,
    hrelation _ hmanyToMany, hconfig _ hdepth, helement _⟩

end XmlShape
