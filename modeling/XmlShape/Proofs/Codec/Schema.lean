import XmlShape.Codec.Schema
import XmlShape.Proofs.Codec.Structure

/-!
# Schema models read back

What a model holds reads back part by part. A format of data carries counts of 64 bits and finite
measures, and nothing else is asked of a value for it to be `Writable`.
-/

namespace XmlShape

open Data

theorem ElementType.ofValue?_toValue (type : ElementType) : ofValue? type.toValue = some type :=
  ofName?_name type

namespace Schema

/-!
# Records
-/

def Child.Writable (c : Child) : Prop :=
  c.occurrences ≤ maxCount

theorem Child.ofValue?_toValue {c : Child} (h : c.Writable) : ofValue? c.toValue = some c := by
  have hslots : slots ["name", "inferredType", "parentName", "occurrenceCount"] c.toValue =
      some [some (.text c.name), some c.type.toValue, some (.text c.parent),
        some (.count c.occurrences)] :=
    slots_present (by decide) rfl rfl
  simp [ofValue?, hslots, ElementType.ofValue?_toValue, count?_count h]

structure Record.Writable (r : Record) : Prop where
  children : ∀ c ∈ r.children, c.Writable
  occurrences : r.occurrences ≤ maxCount
  depth : r.depth ≤ maxCount

/-- The root is written without the name of a parent and reads back without one. -/
theorem Record.ofValue?_toValue {r : Record} (h : r.Writable) : ofValue? r.toValue = some r := by
  have hslots : slots ["name", "inferredType", "parentName", "children", "attributes",
      "occurrenceCount", "depth"] r.toValue =
        some [some (.text r.name), some r.type.toValue, r.parent.map .text,
          some (listValue Child.toValue r.children), some (mapValue .text r.attributes),
          some (.count r.occurrences), some (.count r.depth)] :=
    slots_present (by decide) rfl rfl
  have hchildren : listOf? Child.ofValue? (listValue Child.toValue r.children) = some r.children :=
    listOf?_listValue fun c hc => Child.ofValue?_toValue (h.children c hc)
  have hattributes : mapOf? Value.text? (mapValue .text r.attributes) = some r.attributes :=
    mapOf?_mapValue fun _ _ => rfl
  simp [ofValue?, hslots, ElementType.ofValue?_toValue, hchildren, hattributes,
    count?_count h.occurrences, count?_count h.depth]

/-!
# Models
-/

def Pattern.Writable (p : Pattern) : Prop :=
  Decimal.isFinite p.similarity = true

theorem Pattern.ofValue?_toValue {p : Pattern} (h : p.Writable) : ofValue? p.toValue = some p := by
  have hslots : slots ["patternName", "elementNames", "similarityScore", "parentContext",
      "isRepeating"] p.toValue =
        some [some (.text p.name), some (listValue .text p.elements),
          some (.measure p.similarity), p.context.map .text, some (.bool p.repeating)] :=
    slots_present (by decide) rfl rfl
  have helements : listOf? Value.text? (listValue .text p.elements) = some p.elements :=
    listOf?_listValue fun _ _ => rfl
  simp [ofValue?, hslots, helements, real?_measure h]

structure Model.Writable (m : Model) : Prop where
  records : ∀ r ∈ m.records, r.Writable
  frequency : ∀ n ∈ m.frequency.values, n ≤ maxCount
  patterns : ∀ p ∈ m.patterns, p.Writable

theorem Model.ofValue?_toValue {m : Model} (h : m.Writable) : ofValue? m.toValue = some m := by
  have hslots : slots ["rootElementName", "elements", "elementFrequency", "patterns"] m.toValue =
      some [some (.text m.root), some (listValue Record.toValue m.records),
        some (mapValue .count m.frequency), some (listValue Pattern.toValue m.patterns)] :=
    slots_present (by decide) rfl rfl
  have hrecords : listOf? Record.ofValue? (listValue Record.toValue m.records) = some m.records :=
    listOf?_listValue fun r hr => Record.ofValue?_toValue (h.records r hr)
  have hfrequency : mapOf? Value.count? (mapValue .count m.frequency) = some m.frequency :=
    mapOf?_mapValue fun n hn => count?_count (h.frequency n hn)
  have hpatterns : listOf? Pattern.ofValue? (listValue Pattern.toValue m.patterns) =
      some m.patterns :=
    listOf?_listValue fun p hp => Pattern.ofValue?_toValue (h.patterns p hp)
  simp [ofValue?, hslots, hrecords, hfrequency, hpatterns]

/-!
# Relations
-/

structure OneToMany.Writable (r : OneToMany) : Prop where
  cardinality : r.cardinality ≤ maxCount
  confidence : Decimal.isFinite r.confidence = true

theorem OneToMany.ofValue?_toValue {r : OneToMany} (h : r.Writable) :
    ofValue? r.toValue = some r := by
  have hslots : slots ["parentElement", "childElement", "cardinality", "confidence"] r.toValue =
      some [some (.text r.parent), some (.text r.child), some (.count r.cardinality),
        some (.measure r.confidence)] :=
    slots_present (by decide) rfl rfl
  simp [ofValue?, hslots, count?_count h.cardinality, real?_measure h.confidence]

def ManyToMany.Writable (r : ManyToMany) : Prop :=
  Decimal.isFinite r.confidence = true

theorem ManyToMany.ofValue?_toValue {r : ManyToMany} (h : r.Writable) :
    ofValue? r.toValue = some r := by
  have hslots : slots ["firstElement", "secondElement", "linkingElement", "confidence"] r.toValue =
      some [some (.text r.first), some (.text r.second), some (.text r.linking),
        some (.measure r.confidence)] :=
    slots_present (by decide) rfl rfl
  simp [ofValue?, hslots, real?_measure h]

def ParentChild.Writable (r : ParentChild) : Prop :=
  r.depth ≤ maxCount

theorem ParentChild.ofValue?_toValue {r : ParentChild} (h : r.Writable) :
    ofValue? r.toValue = some r := by
  have hslots : slots ["parentElement", "childElement", "depth", "isDirectChild"] r.toValue =
      some [some (.text r.parent), some (.text r.child), some (.count r.depth),
        some (.bool r.direct)] :=
    slots_present (by decide) rfl rfl
  simp [ofValue?, hslots, count?_count h]

def Relation.Writable : Relation → Prop
  | .oneToMany r => r.Writable
  | .manyToMany r => r.Writable
  | .parentChild r => r.Writable

/-- The reader takes the kind out of the fields, and the rest are the fields of that kind. -/
theorem Relation.ofValue?_tagged {fields : List (String × Value)}
    (hfields : "kind" ∉ fields.map Prod.fst) (kind : String) :
    ofValue? (.record (("kind", .text kind) :: fields)) = ofKind? kind (.record fields) := by
  have hslots : namedSlots ["kind"] (("kind", .text kind) :: fields) =
      some [some (.text kind)] := by
    have hcount : fields.countP (·.1 == "kind") = 0 := by
      rw [List.countP_eq_zero]
      intro field hfield hname
      exact hfields (List.mem_map.mpr ⟨field, hfield, eq_of_beq hname⟩)
    simp [namedSlots, hcount]
  have hfilter : (("kind", Value.text kind) :: fields).filter (·.1 ≠ "kind") = fields := by
    rw [List.filter_cons_of_neg (by simp), List.filter_eq_self]
    intro field hfield
    rw [decide_eq_true_iff]
    intro hname
    exact hfields (List.mem_map.mpr ⟨field, hfield, hname⟩)
  rw [ofValue?, hslots, hfilter]
  rfl

theorem Relation.ofValue?_toValue {r : Relation} (h : r.Writable) :
    ofValue? r.toValue = some r := by
  cases r with
  | oneToMany r =>
      have hfields : "kind" ∉ r.toFields.map Prod.fst := by
        simp [OneToMany.toFields]
      rw [toValue, ofValue?_tagged hfields]
      exact congrArg (Option.map oneToMany) (OneToMany.ofValue?_toValue h)
  | manyToMany r =>
      have hfields : "kind" ∉ r.toFields.map Prod.fst := by
        simp [ManyToMany.toFields]
      rw [toValue, ofValue?_tagged hfields]
      exact congrArg (Option.map manyToMany) (ManyToMany.ofValue?_toValue h)
  | parentChild r =>
      have hfields : "kind" ∉ r.toFields.map Prod.fst := by
        simp [ParentChild.toFields]
      rw [toValue, ofValue?_tagged hfields]
      exact congrArg (Option.map parentChild) (ParentChild.ofValue?_toValue h)

structure Relations.Writable (r : Relations) : Prop where
  oneToMany : ∀ relation ∈ r.oneToMany, relation.Writable
  manyToMany : ∀ relation ∈ r.manyToMany, relation.Writable
  parentChild : ∀ relation ∈ r.parentChild, relation.Writable

theorem Relations.ofValue?_toValue {r : Relations} (h : r.Writable) :
    ofValue? r.toValue = some r := by
  have hslots : slots ["oneToMany", "manyToMany", "parentChild"] r.toValue =
      some [some (listValue OneToMany.toValue r.oneToMany),
        some (listValue ManyToMany.toValue r.manyToMany),
        some (listValue ParentChild.toValue r.parentChild)] :=
    slots_present (by decide) rfl rfl
  have honeToMany : listOf? OneToMany.ofValue? (listValue OneToMany.toValue r.oneToMany) =
      some r.oneToMany :=
    listOf?_listValue fun relation hr => OneToMany.ofValue?_toValue (h.oneToMany relation hr)
  have hmanyToMany : listOf? ManyToMany.ofValue? (listValue ManyToMany.toValue r.manyToMany) =
      some r.manyToMany :=
    listOf?_listValue fun relation hr => ManyToMany.ofValue?_toValue (h.manyToMany relation hr)
  have hparentChild : listOf? ParentChild.ofValue? (listValue ParentChild.toValue r.parentChild) =
      some r.parentChild :=
    listOf?_listValue fun relation hr => ParentChild.ofValue?_toValue (h.parentChild relation hr)
  simp [ofValue?, hslots, honeToMany, hmanyToMany, hparentChild]

/-!
# Fields
-/

theorem FieldShape.ofValue?_toValue (s : FieldShape) : ofValue? s.toValue = some s := by
  have hslots : slots ["elementType", "isList", "itemElement", "container"] s.toValue =
      some [some s.type.toValue, some (.bool s.isList), some (.text s.item),
        some (.bool s.container)] :=
    slots_present (by decide) rfl rfl
  simp [ofValue?, hslots, ElementType.ofValue?_toValue]

theorem mapOf?_fieldsValue (fields : Fields) :
    mapOf? FieldShape.ofValue? (fieldsValue fields) = some fields :=
  mapOf?_mapValue fun shape _ => FieldShape.ofValue?_toValue shape

end Schema
end XmlShape
