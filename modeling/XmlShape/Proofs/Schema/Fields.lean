import XmlShape.Proofs.Schema.Survey
import XmlShape.Proofs.Schema.Widening

/-!
# Fields without containers

Two folds, one over the children of a record and one over the records of a name, come to one shape
for each field. The shape is read off the types that the field has, grouped by the element they
occur in: the widest of them, and a list if a group has two. Each fold is carried by the invariant
that its map holds the shapes of what has been folded so far; for the second fold it is stated with
any naming convention.
-/

namespace XmlShape
namespace Schema

open ElementType

/-!
# Shapes of groups
-/

def shapeOf (item : String) (groups : List (List ElementType)) : Option FieldShape :=
  (widenAll? groups.flatten).map fun type =>
    { type, isList := groups.any (1 < ·.length), item, container := false }

theorem any_eq_false_of_flatten {groups : List (List ElementType)} (h : groups.flatten = []) :
    groups.any (1 < ·.length) = false := by
  rw [List.any_eq_false]
  intro group hgroup
  have hnil : group = [] := List.flatten_eq_nil_iff.mp h group hgroup
  simp [hnil]

/-- Shapes of different occurrences are merged by taking their groups together. -/
theorem merge_shapeOf (item : String) (groups groups' : List (List ElementType)) :
    Option.merge FieldShape.merge (shapeOf item groups) (shapeOf item groups') =
      shapeOf item (groups ++ groups') := by
  unfold shapeOf
  rw [List.flatten_append, widenAll?_append, List.any_append]
  cases htypes : widenAll? groups.flatten with
  | none =>
      rw [any_eq_false_of_flatten (widenAll?_eq_none.mp htypes)]
      simp
  | some type =>
      cases htypes' : widenAll? groups'.flatten with
      | none =>
          rw [any_eq_false_of_flatten (widenAll?_eq_none.mp htypes')]
          simp
      | some type' =>
          rfl

/-!
# The fields of one record
-/

def typesNamed (name : String) (children : List Child) : List ElementType :=
  (children.filter (·.name = name)).map (·.type)

theorem length_typesNamed (name : String) (children : List Child) :
    (typesNamed name children).length = (children.map (·.name)).count name := by
  rw [typesNamed, List.length_map, List.count, List.countP_map, List.countP_eq_length_filter]
  rfl

/-- The fields of the children that have been folded. -/
def HoldsFields (children : List Child) (fields : Fields) : Prop :=
  ∀ name, fields.get? name = shapeOf name [typesNamed name children]

theorem typesNamed_concat_self (children : List Child) (child : Child) :
    typesNamed child.name (children ++ [child]) =
      typesNamed child.name children ++ [child.type] := by
  simp [typesNamed]

theorem typesNamed_concat_of_ne {name : String} {child : Child} (h : name ≠ child.name)
    (children : List Child) :
    typesNamed name (children ++ [child]) = typesNamed name children := by
  simp [typesNamed, Ne.symm h]

def addChild (fields : Fields) (child : Child) : Fields :=
  fields.update child.name fun
    | some shape => { shape with isList := true, type := shape.type.widen child.type }
    | none => .single child.name child.type

theorem HoldsFields.add {children : List Child} {fields : Fields}
    (h : HoldsFields children fields) (child : Child) :
    HoldsFields (children ++ [child]) (addChild fields child) := by
  intro name
  rw [addChild, NameMap.get?_update]
  by_cases hname : name = child.name
  · subst hname
    rw [if_pos rfl, h child.name, typesNamed_concat_self]
    unfold shapeOf
    cases typesNamed child.name children with
    | nil =>
        rfl
    | cons type types =>
        simp [widenAll?, List.foldl_append]
  · rw [if_neg hname, h name, typesNamed_concat_of_ne hname]

theorem get?_plainFields (children : List Child) (name : String) :
    (plainFields children).get? name = shapeOf name [typesNamed name children] := by
  have hempty : HoldsFields [] .empty := by
    intro name
    rfl
  exact foldl_invariant (motive := HoldsFields) HoldsFields.add children hempty name

theorem resolve_noContainers (m : Model) (r : Record) :
    resolve m .noContainers r = plainFields r.children := by
  have hcontainer : ∀ parent child, containerShape? m .noContainers parent child = none := by
    intro parent child
    rfl
  apply NameMap.ext_get?
  intro name
  rw [resolve, NameMap.get?_mapValues]
  cases (plainFields r.children).get? name with
  | none =>
      rfl
  | some shape =>
      simp [hcontainer]

/-!
# The fields of all records of a name
-/

theorem get?_foldl_merge (name : String) (entries : List (String × FieldShape)) (merged : Fields)
    (hsorted : (entries.map Prod.fst).Pairwise (· < ·)) :
    (entries.foldl (fun (merged : Fields) entry => merged.update entry.1 fun
      | some present => present.merge entry.2
      | none => entry.2) merged).get? name =
      Option.merge FieldShape.merge (merged.get? name) (entries.lookup name) := by
  induction entries generalizing merged with
  | nil =>
      rw [List.foldl_nil, List.lookup_nil, Option.merge_none_right]
  | cons entry rest ih =>
      rw [List.map_cons, List.pairwise_cons] at hsorted
      rw [List.foldl_cons, ih _ hsorted.2, NameMap.get?_update, NameMap.lookup_cons_ite]
      by_cases hname : name = entry.1
      · subst hname
        rw [NameMap.lookup_eq_none_of_lt hsorted.1, if_pos rfl, if_pos rfl,
          Option.merge_none_right]
        cases merged.get? entry.1 <;> rfl
      · rw [if_neg hname, if_neg hname]

theorem get?_mergeFields (merged fields : Fields) (name : String) :
    (mergeFields merged fields).get? name =
      Option.merge FieldShape.merge (merged.get? name) (fields.get? name) :=
  get?_foldl_merge name fields.entries merged fields.sorted

def shapesIn (m : Model) (naming : Naming.Convention) (records : List Record)
    (parent name : String) : List (Option FieldShape) :=
  (records.filter (·.name = parent)).map fun r => (resolve m naming r).get? name

def mergeShapes (shapes : List (Option FieldShape)) : Option FieldShape :=
  shapes.foldl (Option.merge FieldShape.merge) none

structure HoldsResolved (m : Model) (naming : Naming.Convention) (records : List Record)
    (resolved : NameMap Fields) : Prop where
  keys : ∀ parent, parent ∈ resolved.keys ↔ ∃ r ∈ records, r.name = parent
  shapes : ∀ parent name, (resolved.get? parent).bind (·.get? name) =
    mergeShapes (shapesIn m naming records parent name)

def addRecord (m : Model) (naming : Naming.Convention) (resolved : NameMap Fields) (r : Record) :
    NameMap Fields :=
  resolved.update r.name fun
    | some merged => mergeFields merged (resolve m naming r)
    | none => resolve m naming r

section Resolved

variable {m : Model} {naming : Naming.Convention}

theorem mergeShapes_concat (shapes : List (Option FieldShape)) (shape : Option FieldShape) :
    mergeShapes (shapes ++ [shape]) = Option.merge FieldShape.merge (mergeShapes shapes) shape := by
  rw [mergeShapes, mergeShapes, List.foldl_append, List.foldl_cons, List.foldl_nil]

theorem shapesIn_concat_self (records : List Record) (r : Record) (name : String) :
    shapesIn m naming (records ++ [r]) r.name name =
      shapesIn m naming records r.name name ++ [(resolve m naming r).get? name] := by
  simp [shapesIn]

theorem shapesIn_concat_of_ne {parent : String} {r : Record} (h : parent ≠ r.name)
    (records : List Record) (name : String) :
    shapesIn m naming (records ++ [r]) parent name = shapesIn m naming records parent name := by
  simp [shapesIn, Ne.symm h]

theorem get?_addRecord_self (resolved : NameMap Fields) (r : Record) (name : String) :
    ((addRecord m naming resolved r).get? r.name).bind (·.get? name) =
      Option.merge FieldShape.merge ((resolved.get? r.name).bind (·.get? name))
        ((resolve m naming r).get? name) := by
  rw [addRecord, NameMap.get?_update, if_pos rfl, Option.bind_some]
  cases resolved.get? r.name with
  | none =>
      rw [Option.bind_none, Option.merge_none_left]
  | some merged =>
      rw [Option.bind_some]
      exact get?_mergeFields merged (resolve m naming r) name

theorem get?_addRecord_of_ne {parent : String} {r : Record} (h : parent ≠ r.name)
    (resolved : NameMap Fields) :
    (addRecord m naming resolved r).get? parent = resolved.get? parent := by
  rw [addRecord, NameMap.get?_update, if_neg h]

theorem mem_keys_addRecord {resolved : NameMap Fields} {r : Record} {parent : String} :
    parent ∈ (addRecord m naming resolved r).keys ↔ parent ∈ resolved.keys ∨ r.name = parent := by
  rw [NameMap.mem_keys, NameMap.mem_keys]
  by_cases hparent : parent = r.name
  · subst hparent
    rw [addRecord, NameMap.get?_update, if_pos rfl]
    simp
  · rw [get?_addRecord_of_ne hparent]
    simp [Ne.symm hparent]

theorem HoldsResolved.add {records : List Record} {resolved : NameMap Fields}
    (h : HoldsResolved m naming records resolved) (r : Record) :
    HoldsResolved m naming (records ++ [r]) (addRecord m naming resolved r) := by
  constructor
  · intro parent
    rw [mem_keys_addRecord, h.keys parent]
    simp [or_and_right, exists_or]
  · intro parent name
    by_cases hparent : parent = r.name
    · subst hparent
      rw [get?_addRecord_self, h.shapes r.name name, shapesIn_concat_self, mergeShapes_concat]
    · rw [get?_addRecord_of_ne hparent, h.shapes parent name, shapesIn_concat_of_ne hparent]

theorem holdsResolved_resolveAll (m : Model) (naming : Naming.Convention) :
    HoldsResolved m naming m.compositeRecords (resolveAll m naming) := by
  have hempty : HoldsResolved m naming [] .empty := by
    constructor
    · intro parent
      simp
    · intro parent name
      rfl
  exact foldl_invariant (motive := HoldsResolved m naming) HoldsResolved.add m.compositeRecords
    hempty

end Resolved

def typeGroups (records : List Record) (parent name : String) : List (List ElementType) :=
  (records.filter (·.name = parent)).map fun r => typesNamed name r.children

theorem mergeShapes_shapeOf (item : String) (groups : List (List ElementType)) :
    mergeShapes (groups.map fun group => shapeOf item [group]) = shapeOf item groups := by
  induction groups using List.reverseRecOn with
  | nil =>
      rfl
  | append_singleton groups group ih =>
      rw [List.map_append, List.map_singleton, mergeShapes_concat, ih, merge_shapeOf]

theorem shapesIn_noContainers (m : Model) (records : List Record) (parent name : String) :
    shapesIn m .noContainers records parent name =
      (typeGroups records parent name).map fun group => shapeOf name [group] := by
  rw [shapesIn, typeGroups, List.map_map]
  apply List.map_congr_left
  intro r _
  rw [resolve_noContainers, get?_plainFields]
  rfl

theorem shapes_resolveAll_noContainers (m : Model) (parent name : String) :
    ((resolveAll m .noContainers).get? parent).bind (·.get? name) =
      shapeOf name (typeGroups m.compositeRecords parent name) := by
  rw [(holdsResolved_resolveAll m .noContainers).shapes parent name, shapesIn_noContainers,
    mergeShapes_shapeOf]

/-!
# The fields of a tree
-/

def childrenNamed (name : String) (e : Element) : List Element :=
  e.children.filter (·.name = name)

def typesUnder (truthValues : Bool) (root : Element) (parent name : String) :
    List ElementType :=
  ((elements root).filter (·.name = parent)).flatMap fun e =>
    (childrenNamed name e).map (typeOf truthValues)

theorem isComposite_eq_hasChildren {truthValues : Bool} (v : Visit) (r : Record)
    (h : Describes truthValues v r) : r.type.isComposite = v.element.hasChildren := by
  rw [isComposite, h.type, Element.hasChildren]
  by_cases hnil : v.element.children = []
  · have hleaf : typeOf truthValues v.element ≠ .composite := by
      intro htype
      exact typeOf_eq_composite.mp htype hnil
    simp [hleaf, hnil]
  · have hcomposite : typeOf truthValues v.element = .composite :=
      typeOf_eq_composite.mpr hnil
    simp [hcomposite, hnil]

theorem typesNamed_eq {truthValues : Bool} (name : String) (v : Visit) (r : Record)
    (h : Describes truthValues v r) :
    typesNamed name r.children = (childrenNamed name v.element).map (typeOf truthValues) := by
  rw [typesNamed, childrenNamed, h.children, List.filter_map, List.map_map]
  rfl

theorem typeGroups_scan (options : ScanOptions) (root : Element) (parent name : String) :
    typeGroups (scan options root).compositeRecords parent name =
      ((elements root).filter fun e => decide (e.name = parent) && e.hasChildren).map
        fun e => (childrenNamed name e).map (typeOf options.truthValues) := by
  rw [typeGroups, Model.compositeRecords, List.filter_filter]
  apply map_filter_records _ (typesNamed_eq name) (describes_scan options root)
  intro v r h
  rw [h.name, isComposite_eq_hasChildren v r h]

theorem childrenNamed_of_not_hasChildren {e : Element} (h : ¬ e.hasChildren) (name : String) :
    childrenNamed name e = [] := by
  have hnil : e.children = [] := by
    simpa [Element.hasChildren] using h
  rw [childrenNamed, hnil, List.filter_nil]

/-- Elements without children have no types to contribute, so that nothing is lost with their
records. -/
theorem flatten_typeGroups_scan (options : ScanOptions) (root : Element) (parent name : String) :
    (typeGroups (scan options root).compositeRecords parent name).flatten =
      typesUnder options.truthValues root parent name := by
  rw [typeGroups_scan, typesUnder, ← List.flatMap_def]
  induction elements root with
  | nil =>
      rfl
  | cons e es ih =>
      by_cases hname : e.name = parent
      · by_cases hchildren : e.hasChildren
        · simp [hname, hchildren, ih]
        · simp [hname, hchildren, ih, childrenNamed_of_not_hasChildren hchildren]
      · simp [hname, ih]

theorem any_typeGroups_scan (options : ScanOptions) (root : Element) (parent name : String) :
    (typeGroups (scan options root).compositeRecords parent name).any (1 < ·.length) =
      decide (∃ e ∈ elements root, e.name = parent ∧ 2 ≤ (childrenNamed name e).length) := by
  rw [typeGroups_scan, Bool.eq_iff_iff, List.any_eq_true, decide_eq_true_iff]
  constructor
  · rintro ⟨group, hgroup, htwo⟩
    obtain ⟨e, he, rfl⟩ := List.mem_map.mp hgroup
    obtain ⟨hmem, hselect⟩ := List.mem_filter.mp he
    refine ⟨e, hmem, ?_, ?_⟩
    · simp only [Bool.and_eq_true, decide_eq_true_eq] at hselect
      exact hselect.1
    · rw [decide_eq_true_iff, List.length_map] at htwo
      exact htwo
  · rintro ⟨e, hmem, hname, htwo⟩
    have hchildren : e.hasChildren := by
      by_contra hleaf
      rw [childrenNamed_of_not_hasChildren hleaf] at htwo
      cases htwo
    refine ⟨(childrenNamed name e).map (typeOf options.truthValues), ?_, ?_⟩
    · apply List.mem_map_of_mem
      rw [List.mem_filter]
      exact ⟨hmem, by simp [hname, hchildren]⟩
    · rw [decide_eq_true_iff, List.length_map]
      exact htwo

theorem typesUnder_ne_nil (truthValues : Bool) {root : Element} {parent name : String} :
    typesUnder truthValues root parent name ≠ [] ↔
      ∃ e ∈ elements root, e.name = parent ∧ ∃ child ∈ e.children, child.name = name := by
  simp [typesUnder, childrenNamed, List.flatMap_eq_nil_iff, List.filter_eq_nil_iff]

/-- The field of a tree for the elements of one name directly under those of another: it has the
widest of their types, and it is a list if two of them are ever under the same element. -/
def fieldUnder (truthValues : Bool) (root : Element) (parent name : String) : FieldShape :=
  { type := widest (typesUnder truthValues root parent name)
    isList := decide (∃ e ∈ elements root, e.name = parent ∧ 2 ≤ (childrenNamed name e).length)
    item := name
    container := false }

theorem mem_keys_resolveAll_scan (options : ScanOptions) (root : Element) (parent : String) :
    parent ∈ (resolveAll (scan options root) .noContainers).keys ↔
      ∃ e ∈ elements root, e.name = parent ∧ e.children ≠ [] := by
  have hnames : (scan options root).compositeRecords.map (·.name) =
      ((elements root).filter (·.hasChildren)).map (·.name) :=
    map_filter_records isComposite_eq_hasChildren (fun v r h => h.name)
      (describes_scan options root)
  rw [(holdsResolved_resolveAll (scan options root) .noContainers).keys parent, ← List.mem_map,
    hnames]
  simp [Element.hasChildren, and_assoc, and_comm]

theorem get?_resolveAll_scan (options : ScanOptions) (root : Element) (parent name : String) :
    ((resolveAll (scan options root) .noContainers).get? parent).bind (·.get? name) =
      if typesUnder options.truthValues root parent name = [] then none
      else some (fieldUnder options.truthValues root parent name) := by
  rw [shapes_resolveAll_noContainers, shapeOf, flatten_typeGroups_scan, any_typeGroups_scan,
    widenAll?_eq_widest]
  by_cases hnil : typesUnder options.truthValues root parent name = []
  · rw [if_pos hnil, if_pos hnil, Option.map_none]
  · rw [if_neg hnil, if_neg hnil, Option.map_some]
    rfl

theorem mem_fields_resolveAll_scan (options : ScanOptions) (root : Element)
    (parent name : String) :
    (∃ fields, (resolveAll (scan options root) .noContainers).get? parent = some fields ∧
        name ∈ fields.keys) ↔
      ∃ e ∈ elements root, e.name = parent ∧ ∃ child ∈ e.children, child.name = name := by
  have hshape := get?_resolveAll_scan options root parent name
  rw [← typesUnder_ne_nil options.truthValues]
  constructor
  · rintro ⟨fields, hfields, hname⟩ hnil
    rw [hfields, if_pos hnil, Option.bind_some] at hshape
    rw [NameMap.mem_keys, hshape] at hname
    cases hname
  · intro hne
    rw [if_neg hne, Option.bind_eq_some_iff] at hshape
    obtain ⟨fields, hfields, hname⟩ := hshape
    refine ⟨fields, hfields, ?_⟩
    rw [NameMap.mem_keys, hname]
    rfl

/-- The fields of a tree in closed form. The names with fields are those of the elements that have
children, and their fields are the names of these children. -/
theorem resolveAll_scan_noContainers (config : Config) (root : Element) :
    (∀ parent, parent ∈ (resolveAll (scan config.scanning root) .noContainers).keys ↔
      ∃ e ∈ elements root, e.name = parent ∧ e.children ≠ []) ∧
    (∀ parent name, (∃ fields,
        (resolveAll (scan config.scanning root) .noContainers).get? parent = some fields ∧
          name ∈ fields.keys) ↔
      ∃ e ∈ elements root, e.name = parent ∧ ∃ child ∈ e.children, child.name = name) ∧
    (∀ parent name,
      ((resolveAll (scan config.scanning root) .noContainers).get? parent).bind (·.get? name) =
        if typesUnder config.detectBooleans root parent name = [] then none
        else some (fieldUnder config.detectBooleans root parent name)) :=
  ⟨mem_keys_resolveAll_scan config.scanning root, mem_fields_resolveAll_scan config.scanning root,
    get?_resolveAll_scan config.scanning root⟩

end Schema
end XmlShape
