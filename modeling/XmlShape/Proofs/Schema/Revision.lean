import XmlShape.Analysis
import XmlShape.Proofs.Schema.Containers
import XmlShape.Proofs.Schema.Patterns
import XmlShape.Proofs.Schema.Survey

/-!
# Revisions

A revision replaces the types of records and children by others and the occurrence counts of
records too. If it respects widening and keeps apart what is composite and what is not, then it can
be made before an analysis as well as after it: no detector looks at types or counts, and the fields
are resolved in the same way from the types that replace the others.
-/

namespace XmlShape
namespace Schema

open ElementType Naming

structure Revision where
  type : ElementType → ElementType
  count : Nat → Nat
  type_widen : ∀ a b, type (a.widen b) = (type a).widen (type b)
  isComposite_type : ∀ a, (type a).isComposite = a.isComposite

namespace Revision

variable (ρ : Revision)

def child (c : Child) : Child :=
  { c with type := ρ.type c.type }

/-- The counts of children are left alone: each of them stands for one element. -/
def record (r : Record) : Record :=
  { r with
    type := ρ.type r.type
    children := r.children.map ρ.child
    occurrences := ρ.count r.occurrences }

def model (m : Model) : Model :=
  { m with records := m.records.map ρ.record }

def shape (s : FieldShape) : FieldShape :=
  { s with type := ρ.type s.type }

def fields (fields : Fields) : Fields :=
  fields.mapValues fun _ => ρ.shape

def analysis (a : Analysis) : Analysis :=
  { a with
    schema := ρ.model a.schema
    fields := a.fields.mapValues fun _ => ρ.fields }

/-!
# Types
-/

theorem widenAll?_map (types : List ElementType) :
    widenAll? (types.map ρ.type) = (widenAll? types).map ρ.type := by
  cases types with
  | nil =>
      rfl
  | cons type types =>
      rw [List.map_cons, widenAll?, widenAll?, Option.map_some, List.foldl_map, Option.some_inj]
      exact List.foldl_hom ρ.type fun a b => (ρ.type_widen a b).symm

theorem typesNamed_map (name : String) (children : List Child) :
    typesNamed name (children.map ρ.child) = (typesNamed name children).map ρ.type := by
  rw [typesNamed, typesNamed, List.filter_map, List.map_map, List.map_map]
  rfl

theorem shapeOf_map (item : String) (types : List ElementType) :
    shapeOf item [types.map ρ.type] = (shapeOf item [types]).map ρ.shape := by
  rw [shapeOf, shapeOf, List.flatten_singleton, List.flatten_singleton, widenAll?_map]
  cases widenAll? types with
  | none =>
      rfl
  | some type =>
      simp [shape]

/-!
# Fields
-/

theorem plainFields_map (children : List Child) :
    plainFields (children.map ρ.child) = ρ.fields (plainFields children) := by
  apply NameMap.ext_get?
  intro name
  rw [fields, NameMap.get?_mapValues, get?_plainFields, get?_plainFields, typesNamed_map,
    shapeOf_map]

theorem dominantChild?_record (r : Record) :
    dominantChild? (ρ.record r) = dominantChild? r := by
  have hcounts : (ρ.record r).childCounts = r.childCounts :=
    List.foldl_map
  unfold dominantChild?
  rw [hcounts]
  exact List.foldl_map

theorem shapeOfItems?_map (candidates : List String) (children : List Child) (item : String)
    (count : Nat) :
    shapeOfItems? candidates (children.map ρ.child) item count =
      (shapeOfItems? candidates children item count).map ρ.shape := by
  unfold shapeOfItems?
  rw [List.length_map, typesNamed_map, widenAll?_map]
  split
  · cases widenAll? (typesNamed item children) <;> rfl
  · rfl

theorem containerShape?_model (m : Model) (naming : Convention) (parent name : String) :
    containerShape? (ρ.model m) naming parent name =
      (containerShape? m naming parent name).map ρ.shape := by
  have hfilled : isFilled parent name ∘ ρ.record = isFilled parent name := by
    funext r
    simp [isFilled, record, Record.hasChildren]
  have hwithin : ∀ r, shapeWithin? (naming.candidates name) (ρ.record r) =
      (shapeWithin? (naming.candidates name) r).map ρ.shape := by
    intro r
    rw [shapeWithin?, shapeWithin?, dominantChild?_record, Option.map_bind]
    congr 1
    funext best
    exact ρ.shapeOfItems?_map _ _ _ _
  rw [containerShape?_eq, containerShape?_eq]
  split
  · rfl
  · rw [model, List.find?_map, hfilled, Option.map_bind, Option.bind_map]
    congr 1
    funext r
    exact hwithin r

theorem resolve_record (m : Model) (naming : Convention) (r : Record) :
    resolve (ρ.model m) naming (ρ.record r) = ρ.fields (resolve m naming r) := by
  apply NameMap.ext_get?
  intro name
  have hplain : plainFields (ρ.record r).children = ρ.fields (plainFields r.children) :=
    ρ.plainFields_map r.children
  rw [resolve, resolve, hplain, fields, fields]
  simp only [NameMap.get?_mapValues, containerShape?_model]
  cases (plainFields r.children).get? name with
  | none =>
      rfl
  | some s =>
      have hname : (ρ.record r).name = r.name := rfl
      simp only [Option.map_some, shape, ρ.isComposite_type, hname]
      split
      · rfl
      · cases containerShape? m naming r.name name <;> rfl

theorem merge_shape (a b : FieldShape) : (ρ.shape a).merge (ρ.shape b) = ρ.shape (a.merge b) := by
  obtain ⟨type, isList, item, container⟩ := a
  obtain ⟨type', isList', item', container'⟩ := b
  cases container <;> cases container' <;> simp [shape, FieldShape.merge, ρ.type_widen]

theorem mergeFields_fields (merged added : Fields) :
    mergeFields (ρ.fields merged) (ρ.fields added) = ρ.fields (mergeFields merged added) := by
  apply NameMap.ext_get?
  intro name
  simp only [fields, get?_mergeFields, NameMap.get?_mapValues]
  cases merged.get? name with
  | none =>
      rw [Option.map_none, Option.merge_none_left, Option.merge_none_left]
  | some a =>
      cases added.get? name with
      | none =>
          rw [Option.map_none, Option.merge_none_right, Option.merge_none_right]
      | some b =>
          exact congrArg some (ρ.merge_shape a b)

theorem compositeRecords_model (m : Model) :
    (ρ.model m).compositeRecords = m.compositeRecords.map ρ.record := by
  have hcomposite : (fun r : Record => r.type.isComposite) ∘ ρ.record =
      fun r => r.type.isComposite := by
    funext r
    exact ρ.isComposite_type r.type
  rw [Model.compositeRecords, Model.compositeRecords, model, List.filter_map, hcomposite]

theorem addRecord_model (m : Model) (naming : Convention) (resolved : NameMap Fields)
    (r : Record) :
    addRecord (ρ.model m) naming (resolved.mapValues fun _ => ρ.fields) (ρ.record r) =
      (addRecord m naming resolved r).mapValues fun _ => ρ.fields := by
  rw [addRecord, addRecord, resolve_record]
  symm
  apply NameMap.mapValues_update
  intro merged?
  cases merged? with
  | none =>
      rfl
  | some merged =>
      exact (ρ.mergeFields_fields merged (resolve m naming r)).symm

theorem resolveAll_model (m : Model) (naming : Convention) :
    resolveAll (ρ.model m) naming = (resolveAll m naming).mapValues fun _ => ρ.fields := by
  have hfold : ∀ n : Model, resolveAll n naming =
      n.compositeRecords.foldl (addRecord n naming) .empty := by
    intro n
    rfl
  have hempty : (.empty : NameMap Fields) = NameMap.empty.mapValues fun _ => ρ.fields := rfl
  rw [hfold, hfold, compositeRecords_model, List.foldl_map, hempty]
  apply List.foldl_hom
  exact ρ.addRecord_model m naming

/-!
# Relations and statistics
-/

theorem detectOneToMany_model (m : Model) : detectOneToMany (ρ.model m) = detectOneToMany m := by
  have hrepeated : ∀ r, repeatedChildren (ρ.record r) = repeatedChildren r := by
    intro r
    have hcounts : (ρ.record r).childCounts = r.childCounts :=
      List.foldl_map
    unfold repeatedChildren
    rw [hcounts]
    rfl
  rw [detectOneToMany, detectOneToMany, model, List.flatMap_map]
  simp only [hrepeated]

theorem detectRelations_model (m : Model) : detectRelations (ρ.model m) = detectRelations m := by
  have hcontexts : contexts (ρ.model m).records = contexts m.records :=
    List.foldl_map
  have hparents : firstParents (ρ.model m).records = firstParents m.records :=
    List.foldl_map
  have hmany : detectManyToMany (ρ.model m) = detectManyToMany m := by
    unfold detectManyToMany
    rw [hcontexts]
    rfl
  have hdepth : parentDepth (ρ.model m) = parentDepth m := by
    funext parent
    unfold parentDepth
    rw [hparents]
    rfl
  have hchild : detectParentChild (ρ.model m) = detectParentChild m := by
    unfold detectParentChild
    rw [hdepth, model, List.filterMap_map]
    rfl
  unfold detectRelations
  rw [detectOneToMany_model, hmany, hchild]

theorem recursiveNames_model (m : Model) : recursiveNames (ρ.model m) = recursiveNames m := by
  have hedges : edges (ρ.model m).records = edges m.records := by
    unfold edges
    rw [model, List.filterMap_map]
    rfl
  have hgraph : nameGraph (ρ.model m) = nameGraph m := by
    unfold nameGraph
    simp only [hedges]
    rfl
  unfold recursiveNames recursiveNamesBy
  rw [hgraph]

theorem statsOf_model (m : Model) (relations : Relations) :
    statsOf (ρ.model m) relations = statsOf m relations := by
  have hrecords : (ρ.model m).records = m.records.map ρ.record := rfl
  have hcomposite : (ρ.model m).compositeRecords.map (·.name) =
      m.compositeRecords.map (·.name) := by
    rw [compositeRecords_model, List.map_map]
    rfl
  have hdepth : (ρ.model m).maxDepth = m.maxDepth := by
    unfold Model.maxDepth
    rw [hrecords, List.map_map]
    rfl
  unfold statsOf
  rw [hcomposite, hdepth, hrecords, List.length_map, List.foldl_map]
  rfl

theorem analyzeModel_model (naming : Convention) (m : Model) :
    analyzeModel naming (ρ.model m) = ρ.analysis (analyzeModel naming m) := by
  simp only [analyzeModel, analysis, detectRelations_model, resolveAll_model, recursiveNames_model,
    statsOf_model]

end Revision

end Schema
end XmlShape
