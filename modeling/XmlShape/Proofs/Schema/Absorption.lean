import XmlShape.Proofs.Schema.Fields

/-!
# What an occurrence adds

The fields of a name are merged from all its occurrences. An occurrence adds nothing to some fields
if merging its own into them leaves them as they are, and this lasts however many others are merged
in. So the fields of one occurrence are those of the name exactly if no other occurrence adds to
them.
-/

namespace XmlShape
namespace Schema

open ElementType

/-!
# Shapes
-/

/-- The shape `b` adds nothing to `a`. -/
def FieldShape.Absorbs (a b : FieldShape) : Prop :=
  a.merge b = a

theorem widen_widen_self (a b : ElementType) : (a.widen b).widen b = a.widen b := by
  rw [widen_assoc, widen_self]

theorem FieldShape.absorbs_self (a : FieldShape) : a.Absorbs a := by
  obtain ⟨type, isList, item, container⟩ := a
  cases container <;> simp [Absorbs, merge, widen_self]

theorem FieldShape.merge_absorbs (a b : FieldShape) : (a.merge b).Absorbs b := by
  obtain ⟨type, isList, item, container⟩ := a
  obtain ⟨type', isList', item', container'⟩ := b
  cases container <;> cases container' <;>
    simp [Absorbs, merge, widen_widen_self, widen_self]

theorem widen_right_comm (a b c : ElementType) : (a.widen b).widen c = (a.widen c).widen b := by
  rw [widen_assoc, widen_comm b c, widen_assoc]

theorem FieldShape.Absorbs.merge {a c : FieldShape} (h : a.Absorbs c) (b : FieldShape) :
    (a.merge b).Absorbs c := by
  have htypes : a.type.widen c.type = a.type →
      (a.type.widen b.type).widen c.type = a.type.widen b.type := by
    intro htype
    rw [widen_right_comm, htype]
  obtain ⟨type, isList, item, container⟩ := a
  obtain ⟨type', isList', item', container'⟩ := b
  obtain ⟨type'', isList'', item'', container''⟩ := c
  -- A container and a plain shape only meet in which of them prevails, so the types matter
  -- where both are of one kind.
  cases container <;> cases container' <;> cases container'' <;>
    grind [Absorbs, FieldShape.merge]

/-!
# Merged shapes
-/

def AbsorbsShape (a? b? : Option FieldShape) : Prop :=
  Option.merge FieldShape.merge a? b? = a?

theorem absorbsShape_iff {a? b? : Option FieldShape} :
    AbsorbsShape a? b? ↔ ∀ b, b? = some b → ∃ a, a? = some a ∧ a.Absorbs b := by
  cases a? <;> cases b? <;> simp [AbsorbsShape, FieldShape.Absorbs]

theorem merge_absorbsShape (a? b? : Option FieldShape) :
    AbsorbsShape (Option.merge FieldShape.merge a? b?) b? := by
  rw [absorbsShape_iff]
  rintro b rfl
  cases a? with
  | none =>
      exact ⟨b, rfl, b.absorbs_self⟩
  | some a =>
      exact ⟨a.merge b, rfl, a.merge_absorbs b⟩

theorem AbsorbsShape.merge {a? c? : Option FieldShape} (h : AbsorbsShape a? c?)
    (b? : Option FieldShape) : AbsorbsShape (Option.merge FieldShape.merge a? b?) c? := by
  rw [absorbsShape_iff] at h ⊢
  intro c hc
  obtain ⟨a, rfl, habsorbs⟩ := h c hc
  cases b? with
  | none =>
      exact ⟨a, rfl, habsorbs⟩
  | some b =>
      exact ⟨a.merge b, rfl, habsorbs.merge b⟩

theorem mergeShapes_absorbs {shapes : List (Option FieldShape)} {shape? : Option FieldShape}
    (h : shape? ∈ shapes) : AbsorbsShape (mergeShapes shapes) shape? := by
  induction shapes using List.reverseRecOn with
  | nil =>
      cases h
  | append_singleton shapes last? ih =>
      rw [mergeShapes_concat]
      rcases List.mem_append.mp h with hmem | hlast
      · exact (ih hmem).merge last?
      · rw [List.mem_singleton.mp hlast]
        exact merge_absorbsShape _ last?

theorem foldl_merge_of_absorbs {shapes : List (Option FieldShape)} {first? : Option FieldShape}
    (h : ∀ shape? ∈ shapes, AbsorbsShape first? shape?) :
    shapes.foldl (Option.merge FieldShape.merge) first? = first? := by
  induction shapes with
  | nil =>
      rfl
  | cons shape? shapes ih =>
      rw [List.foldl_cons, h shape? List.mem_cons_self]
      exact ih fun other? hother => h other? (List.mem_cons_of_mem shape? hother)

/-!
# Fields
-/

/-- Every one of the `others` is among the fields, with a shape to which it adds nothing. -/
def Fields.Absorb (fields others : Fields) : Prop :=
  ∀ name other, others.get? name = some other →
    ∃ shape, fields.get? name = some shape ∧ shape.Absorbs other

theorem Fields.absorb_iff {fields others : Fields} :
    Fields.Absorb fields others ↔
      ∀ name, AbsorbsShape (fields.get? name) (others.get? name) := by
  simp only [Absorb, absorbsShape_iff]

theorem resolve_of_no_children {r : Record} (h : r.children = []) (m : Model)
    (naming : Naming.Convention) (name : String) : (resolve m naming r).get? name = none := by
  rw [resolve, NameMap.get?_mapValues, get?_plainFields, h]
  rfl

/-- The fields of the first record of a name come first in what is merged. If it has no children
they are none, and nothing is left out with it. -/
theorem exists_shapesIn_eq {m : Model} {naming : Naming.Convention} {parent : String}
    {first : Record} (hfirst : m.firstRecord? parent = some first)
    (hleaf : first.type.isComposite = false → first.children = []) (name : String) :
    ∃ rest : List (Option FieldShape),
      mergeShapes (shapesIn m naming m.compositeRecords parent name) =
        rest.foldl (Option.merge FieldShape.merge) ((resolve m naming first).get? name) ∧
      ∀ shape? ∈ rest, shape? ∈ shapesIn m naming m.compositeRecords parent name := by
  cases hcomposite : first.type.isComposite with
  | false =>
      rw [resolve_of_no_children (hleaf hcomposite)]
      exact ⟨_, rfl, fun _ hshape => hshape⟩
  | true =>
      obtain ⟨hname, before, after, hrecords, hbefore⟩ := List.find?_eq_some_iff_append.mp hfirst
      have hnone : (before.filter (·.type.isComposite)).filter (·.name = parent) = [] := by
        rw [List.filter_filter, List.filter_eq_nil_iff]
        intro r hr hboth
        have hnot := hbefore r hr
        rw [Bool.and_eq_true] at hboth
        rw [hboth.1] at hnot
        cases hnot
      have hfilter : m.compositeRecords.filter (·.name = parent) =
          first :: (after.filter (·.type.isComposite)).filter (·.name = parent) := by
        rw [Model.compositeRecords, hrecords, List.filter_append, List.filter_append, hnone,
          List.nil_append, List.filter_cons, if_pos hcomposite, List.filter_cons, if_pos hname]
      rw [shapesIn, hfilter, List.map_cons]
      refine ⟨_, ?_, fun _ hshape => List.mem_cons_of_mem _ hshape⟩
      rw [mergeShapes, List.foldl_cons, Option.merge_none_left]

/-- The fields of the first record of a name are those of the name if no other record with children
adds to them, and only then. -/
theorem resolve_eq_iff_absorb {m : Model} {naming : Naming.Convention} {parent : String}
    {first : Record} {fields : Fields} (hfirst : m.firstRecord? parent = some first)
    (hleaf : first.type.isComposite = false → first.children = [])
    (hfields : (resolveAll m naming).get? parent = some fields) :
    resolve m naming first = fields ↔
      ∀ r ∈ m.compositeRecords, r.name = parent →
        Fields.Absorb (resolve m naming first) (resolve m naming r) := by
  have hmerged : ∀ name, fields.get? name =
      mergeShapes (shapesIn m naming m.compositeRecords parent name) := by
    intro name
    rw [← (holdsResolved_resolveAll m naming).shapes, hfields, Option.bind_some]
  have hmem : ∀ name shape?, shape? ∈ shapesIn m naming m.compositeRecords parent name ↔
      ∃ r ∈ m.compositeRecords, r.name = parent ∧ (resolve m naming r).get? name = shape? := by
    intro name shape?
    simp [shapesIn, and_assoc]
  constructor
  · rintro heq r hr hname
    rw [Fields.absorb_iff]
    intro name
    rw [heq, hmerged name]
    exact mergeShapes_absorbs ((hmem name _).mpr ⟨r, hr, hname, rfl⟩)
  · intro h
    apply NameMap.ext_get?
    intro name
    obtain ⟨rest, hrest, hsubset⟩ := exists_shapesIn_eq hfirst hleaf name
    rw [hmerged name, hrest]
    symm
    apply foldl_merge_of_absorbs
    intro shape? hshape
    obtain ⟨r, hr, hname, rfl⟩ := (hmem name shape?).mp (hsubset shape? hshape)
    exact Fields.absorb_iff.mp (h r hr hname) name

/-!
# Scanned trees
-/

theorem children_of_not_isComposite {options : ScanOptions} {root : Element} {r : Record}
    (hr : r ∈ (scan options root).records) (h : r.type.isComposite = false) : r.children = [] := by
  by_contra hne
  have hexists : ∃ r ∈ (scan options root).records,
      r.type.isComposite = false ∧ r.children ≠ [] := ⟨r, hr, h, hne⟩
  rw [exists_record_iff (q := fun v => v.element.hasChildren = false ∧ v.element.children ≠ []) _
    (describes_scan options root)] at hexists
  · obtain ⟨v, _, hleaf, hchildren⟩ := hexists
    apply hchildren
    simpa [Element.hasChildren] using hleaf
  · intro v r h
    rw [isComposite_eq_hasChildren v r h, h.children, Ne, List.map_eq_nil_iff]

theorem exists_firstRecord? {m : Model} {naming : Naming.Convention} {parent : String}
    {fields : Fields} (h : (resolveAll m naming).get? parent = some fields) :
    ∃ first, m.firstRecord? parent = some first := by
  have hkey : parent ∈ (resolveAll m naming).keys := by
    rw [NameMap.mem_keys, h]
    rfl
  obtain ⟨r, hr, rfl⟩ := ((holdsResolved_resolveAll m naming).keys parent).mp hkey
  exact exists_firstRecord?_of_mem (List.mem_filter.mp hr).1

theorem resolve_first_scan_iff {options : ScanOptions} {root : Element}
    {naming : Naming.Convention} {parent : String} {first : Record} {fields : Fields}
    (hfirst : (scan options root).firstRecord? parent = some first)
    (hfields : (resolveAll (scan options root) naming).get? parent = some fields) :
    resolve (scan options root) naming first = fields ↔
      ∀ r ∈ (scan options root).compositeRecords, r.name = parent →
        Fields.Absorb (resolve (scan options root) naming first)
          (resolve (scan options root) naming r) :=
  resolve_eq_iff_absorb hfirst
    (children_of_not_isComposite (List.mem_of_find?_eq_some hfirst)) hfields

end Schema
end XmlShape
