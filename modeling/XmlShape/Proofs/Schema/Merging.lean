import Mathlib.Data.List.ReduceOption
import XmlShape.Proofs.Schema.Fields

/-!
# Merging shapes

The shapes that a field has in several occurrences of its parent are merged two at a time, and what
they come to can be read off all of them at once. Only some of them decide its type and its item:
the containers, or all shapes if none is a container. Appending lists of shapes merges what they
come to, so it does not matter how the merges are grouped, and their order matters for the item
alone.
-/

namespace XmlShape
namespace Schema

open ElementType

/-!
# Closed form
-/

/-- The shapes that prevail where shapes are merged: the containers among them, or else all. -/
def prevailing (shapes : List FieldShape) : List FieldShape :=
  if shapes.any (·.container) then shapes.filter (·.container) else shapes

/-- What some shapes of a field are merged to, if there are any. Its item is that of the first shape
that prevails, and it is a list also where a container meets a plain shape. -/
def mergedShape (shapes : List FieldShape) : FieldShape :=
  { type := widest ((prevailing shapes).map (·.type))
    isList := shapes.any (·.isList) || shapes.any (·.container) && shapes.any (!·.container)
    item := ((prevailing shapes).headD default).item
    container := shapes.any (·.container) }

theorem mergedShape_singleton (shape : FieldShape) : mergedShape [shape] = shape := by
  cases shape with
  | mk type isList item container =>
      cases container <;> simp [mergedShape, prevailing, widest_singleton]

theorem prevailing_ne_nil {shapes : List FieldShape} (h : shapes ≠ []) : prevailing shapes ≠ [] := by
  unfold prevailing
  split
  · next hany =>
    rcases List.any_eq_true.mp hany with ⟨shape, hshape, hcontainer⟩
    exact List.ne_nil_of_mem (List.mem_filter.mpr ⟨hshape, hcontainer⟩)
  · exact h

theorem prevailing_append (shapes shapes' : List FieldShape) :
    prevailing (shapes ++ shapes') =
      match shapes.any (·.container), shapes'.any (·.container) with
      | true, false => prevailing shapes
      | false, true => prevailing shapes'
      | _, _ => prevailing shapes ++ prevailing shapes' := by
  have hfilter : ∀ plain : List FieldShape, plain.any (·.container) = false →
      plain.filter (·.container) = [] := by
    intro plain hplain
    rw [List.filter_eq_nil_iff]
    simpa using hplain
  unfold prevailing
  rw [List.any_append, List.filter_append]
  cases h : shapes.any (·.container) <;> cases h' : shapes'.any (·.container)
  · rfl
  · simp [hfilter shapes h]
  · simp [hfilter shapes' h']
  · rfl

theorem any_plain {shapes : List FieldShape} (hne : shapes ≠ [])
    (h : shapes.any (·.container) = false) : shapes.any (!·.container) = true := by
  rcases List.exists_mem_of_ne_nil shapes hne with ⟨shape, hshape⟩
  rw [List.any_eq_false] at h
  exact List.any_eq_true.mpr ⟨shape, hshape, by simpa using h shape hshape⟩

theorem mergedShape_append {shapes shapes' : List FieldShape} (hne : shapes ≠ [])
    (hne' : shapes' ≠ []) :
    mergedShape (shapes ++ shapes') = (mergedShape shapes).merge (mergedShape shapes') := by
  have htypes : widest ((prevailing shapes ++ prevailing shapes').map (·.type)) =
      (widest ((prevailing shapes).map (·.type))).widen
        (widest ((prevailing shapes').map (·.type))) := by
    rw [List.map_append, widest_append] <;>
      simp [prevailing_ne_nil hne, prevailing_ne_nil hne']
  have hfirst : (prevailing shapes ++ prevailing shapes').headD default =
      (prevailing shapes).headD default := by
    rcases List.exists_cons_of_ne_nil (prevailing_ne_nil hne) with ⟨first, rest, hprevailing⟩
    rw [hprevailing]
    rfl
  unfold mergedShape FieldShape.merge
  rw [prevailing_append]
  -- Where both sides are of one kind, the shapes that prevail are those of both. Else only one side
  -- is left, and the other has a plain shape, which makes a list of it.
  cases h : shapes.any (·.container) <;> cases h' : shapes'.any (·.container)
  · simp only [h, h', htypes, hfirst, List.any_append, Bool.false_and, Bool.or_false]
  · simp only [h, h', List.any_append, any_plain hne h, Bool.or_true, Bool.true_or, Bool.true_and]
  · simp only [h, h', List.any_append, any_plain hne' h', Bool.or_true, Bool.true_or, Bool.true_and]
  · simp only [h, h', htypes, hfirst, List.any_append, Bool.true_and, Bool.true_or,
      Bool.or_assoc, Bool.or_left_comm]

theorem mergeShapes_eq_mergedShape (shapes : List (Option FieldShape)) :
    mergeShapes shapes =
      if shapes.reduceOption = [] then none else some (mergedShape shapes.reduceOption) := by
  induction shapes using List.reverseRecOn with
  | nil =>
      rfl
  | append_singleton shapes last? ih =>
      rw [mergeShapes_concat, ih, List.reduceOption_append, List.reduceOption_singleton]
      cases last? with
      | none =>
          simp
      | some last =>
          by_cases hnil : shapes.reduceOption = []
          · simp [hnil, mergedShape_singleton]
          · simp [hnil, mergedShape_append, mergedShape_singleton]

theorem mergedShape_eq_container {container : FieldShape}
    (hcontainer : container.container = true ∧ container.isList = true) {shapes : List FieldShape}
    (hmem : container ∈ shapes)
    (hshapes : ∀ shape ∈ shapes, shape.container = true → shape = container) :
    mergedShape shapes = container := by
  have hany : shapes.any (·.container) = true :=
    List.any_eq_true.mpr ⟨container, hmem, hcontainer.1⟩
  have hlist : shapes.any (·.isList) = true :=
    List.any_eq_true.mpr ⟨container, hmem, hcontainer.2⟩
  have hprevailing : ∃ n, prevailing shapes = List.replicate (n + 1) container := by
    have hpos := List.length_pos_iff.mpr (prevailing_ne_nil (List.ne_nil_of_mem hmem))
    rcases Nat.exists_eq_succ_of_ne_zero (Nat.ne_of_gt hpos) with ⟨n, hlength⟩
    refine ⟨n, List.eq_replicate_iff.mpr ⟨hlength, ?_⟩⟩
    intro shape hshape
    rw [prevailing, if_pos hany, List.mem_filter] at hshape
    exact hshapes shape hshape.1 hshape.2
  rcases hprevailing with ⟨n, hprevailing⟩
  rw [mergedShape, hprevailing, List.map_replicate, widest_replicate, hany, hlist,
    List.replicate_succ, List.headD_cons, Bool.true_or]
  rcases container with ⟨type, isList, item, isContainer⟩
  rcases hcontainer with ⟨rfl, rfl⟩
  rfl

/-!
# Groupings
-/

inductive Grouping where
  | one (shape : FieldShape)
  | both (first second : Grouping)

namespace Grouping

def shapes : Grouping → List FieldShape
  | one shape => [shape]
  | both first second => first.shapes ++ second.shapes

def merged : Grouping → FieldShape
  | one shape => shape
  | both first second => first.merged.merge second.merged

theorem shapes_ne_nil (g : Grouping) : g.shapes ≠ [] := by
  induction g with
  | one shape =>
      exact List.cons_ne_nil shape []
  | both first second ih _ =>
      exact List.append_ne_nil_of_left_ne_nil ih second.shapes

theorem merged_eq (g : Grouping) : g.merged = mergedShape g.shapes := by
  induction g with
  | one shape =>
      exact (mergedShape_singleton shape).symm
  | both first second ih ih' =>
      rw [merged, shapes, ih, ih', mergedShape_append first.shapes_ne_nil second.shapes_ne_nil]

end Grouping

theorem foldl_merge (first : FieldShape) (rest : List FieldShape) :
    rest.foldl FieldShape.merge first = mergedShape (first :: rest) := by
  induction rest using List.reverseRecOn with
  | nil =>
      exact (mergedShape_singleton first).symm
  | append_singleton rest last ih =>
      rw [List.foldl_append, ih, List.foldl_cons, List.foldl_nil, ← mergedShape_singleton last,
        ← mergedShape_append (List.cons_ne_nil first rest) (List.cons_ne_nil last []),
        List.cons_append, mergedShape_singleton]

/-!
# Order
-/

theorem prevailing_perm {shapes shapes' : List FieldShape} (h : shapes.Perm shapes') :
    (prevailing shapes).Perm (prevailing shapes') := by
  unfold prevailing
  rw [h.any_eq]
  split
  · exact h.filter _
  · exact h

theorem exists_item_eq {shapes : List FieldShape} (hne : shapes ≠ []) :
    ∃ first ∈ prevailing shapes, (mergedShape shapes).item = first.item := by
  rcases List.exists_cons_of_ne_nil (prevailing_ne_nil hne) with ⟨first, rest, hprevailing⟩
  refine ⟨first, ?_, ?_⟩
  · rw [hprevailing]
    exact List.mem_cons_self
  · rw [mergedShape, hprevailing, List.headD_cons]

/-- Only the item depends on which of the shapes comes first. -/
theorem mergedShape_perm {shapes shapes' : List FieldShape} (h : shapes.Perm shapes')
    (hitem : ∀ shape ∈ prevailing shapes, ∀ other ∈ prevailing shapes, shape.item = other.item) :
    mergedShape shapes = mergedShape shapes' := by
  have hperm := prevailing_perm h
  have htype : widest ((prevailing shapes).map (·.type)) =
      widest ((prevailing shapes').map (·.type)) := widest_perm (hperm.map _)
  have hsame : (mergedShape shapes).item = (mergedShape shapes').item := by
    by_cases hnil : shapes = []
    · subst hnil
      rw [List.nil_perm.mp h]
    · have hnil' : shapes' ≠ [] := by
        intro hnil'
        subst hnil'
        exact hnil (List.perm_nil.mp h)
      rcases exists_item_eq hnil with ⟨first, hfirst, heq⟩
      rcases exists_item_eq hnil' with ⟨first', hfirst', heq'⟩
      rw [heq, heq']
      exact hitem first hfirst first' (hperm.mem_iff.mpr hfirst')
  unfold mergedShape at hsame ⊢
  rw [htype, hsame, h.any_eq, h.any_eq, h.any_eq]

/-- Shapes that are merged from the first to the last come to their closed form. They do so however
the merges are grouped, and in any order if the shapes that prevail have the same item. -/
theorem foldl_merge_closed (first : FieldShape) (rest : List FieldShape) :
    rest.foldl FieldShape.merge first = mergedShape (first :: rest) ∧
      (∀ g : Grouping, g.shapes = first :: rest →
        g.merged = rest.foldl FieldShape.merge first) ∧
      ∀ first' rest', (first' :: rest').Perm (first :: rest) →
        (∀ shape ∈ prevailing (first :: rest), ∀ other ∈ prevailing (first :: rest),
          shape.item = other.item) →
        rest'.foldl FieldShape.merge first' = rest.foldl FieldShape.merge first := by
  refine ⟨foldl_merge first rest, ?_, ?_⟩
  · intro g hshapes
    rw [g.merged_eq, hshapes, foldl_merge]
  · intro first' rest' hperm hitem
    rw [foldl_merge, foldl_merge, mergedShape_perm hperm.symm hitem]

theorem foldl_merge_closed_items :
    let plain := FieldShape.single "items" .composite
    let whole : FieldShape :=
      { type := .integer, isList := true, item := "item", container := true }
    let decimal : FieldShape := { whole with type := .double }
    let grouped := Grouping.both (.one plain) (.both (.one whole) (.one decimal))
    grouped.shapes = [plain, whole, decimal] ∧
      [decimal, plain, whole].Perm [plain, whole, decimal] ∧
      (∀ shape ∈ prevailing [plain, whole, decimal], ∀ other ∈ prevailing [plain, whole, decimal],
        shape.item = other.item) ∧
      mergedShape [plain, whole, decimal] = decimal ∧ grouped.merged = decimal ∧
      [plain, whole].foldl FieldShape.merge decimal = decimal := by
  intro plain whole decimal grouped
  rcases foldl_merge_closed plain [whole, decimal] with ⟨hclosed, hgrouped, horder⟩
  have hmerged : mergedShape [plain, whole, decimal] = decimal := by decide
  have hperm : [decimal, plain, whole].Perm [plain, whole, decimal] := by decide
  have hitem : ∀ shape ∈ prevailing [plain, whole, decimal],
      ∀ other ∈ prevailing [plain, whole, decimal], shape.item = other.item := by decide
  rw [hclosed, hmerged] at hgrouped horder
  exact ⟨rfl, hperm, hitem, hmerged, hgrouped grouped rfl, horder decimal [plain, whole] hperm hitem⟩

end Schema
end XmlShape
