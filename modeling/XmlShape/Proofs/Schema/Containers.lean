import Mathlib.Data.List.MinMax
import XmlShape.Proofs.Schema.Merging

/-!
# Containers

A naming convention changes the shape of a field only where it finds a container. The convention
and the first record of the child that has children settle what the container is, so all occurrences
of the parent that collapse come to the same shape; merging keeps this shape, and else it comes to
the shape without containers.
-/

namespace XmlShape
namespace Schema

open ElementType Naming

/-!
# The most frequent child
-/

def prefer (count : String → Nat) (best? : Option (String × Nat)) (child : Child) :
    Option (String × Nat) :=
  match best? with
  | some (name, most) =>
    if most < count child.name then some (child.name, count child.name) else some (name, most)
  | none => some (child.name, count child.name)

def IsBest (count : String → Nat) (seen : List Child) : Option (String × Nat) → Prop
  | none => seen = []
  | some (name, most) => most = count name ∧ ∀ child ∈ seen, count child.name ≤ most

/-- Child by child, the first one is kept whose name is the most frequent. -/
theorem foldl_prefer (count : String → Nat) (children : List Child) :
    children.foldl (prefer count) none =
      (children.argmax fun child => count child.name).map
        fun child => (child.name, count child.name) := by
  induction children using List.reverseRecOn with
  | nil =>
      rfl
  | append_singleton children child ih =>
      rw [List.foldl_concat, ih, List.argmax_concat]
      cases children.argmax fun child => count child.name with
      | none =>
          rfl
      | some best =>
          by_cases hlt : count best.name < count child.name <;> simp [prefer, hlt]

theorem dominantChild?_eq_argmax (r : Record) :
    dominantChild? r =
      (r.children.argmax fun child => (typesNamed child.name r.children).length).map
        fun child => (child.name, (typesNamed child.name r.children).length) := by
  have hcount : (fun name => (r.childCounts.get? name).getD 0) =
      fun name => (typesNamed name r.children).length := by
    funext name
    rw [length_typesNamed]
    exact (tallies_countNames r.children).getD name
  have hfold : dominantChild? r =
      r.children.foldl (prefer fun name => (r.childCounts.get? name).getD 0) none := rfl
  rw [hfold, hcount, foldl_prefer]

theorem isBest_dominantChild (r : Record) :
    IsBest (fun name => (typesNamed name r.children).length) r.children (dominantChild? r) := by
  rw [dominantChild?_eq_argmax]
  cases hbest : r.children.argmax fun child => (typesNamed child.name r.children).length with
  | none =>
      exact List.argmax_eq_none.mp hbest
  | some best =>
      refine ⟨rfl, ?_⟩
      intro other hother
      exact List.le_of_mem_argmax
        (f := fun child : Child => (typesNamed child.name r.children).length) hother hbest

theorem length_typesNamed_add_le {name other : String} (h : name ≠ other)
    (children : List Child) :
    (typesNamed name children).length + (typesNamed other children).length ≤ children.length := by
  rw [typesNamed, typesNamed, List.length_map, List.length_map, ← List.countP_eq_length_filter,
    ← List.countP_eq_length_filter,
    List.length_eq_countP_add_countP (fun child : Child => decide (child.name = name))]
  apply Nat.add_le_add_left
  apply List.countP_mono_left
  intro child _ hother
  have hname : child.name = other := of_decide_eq_true hother
  simp [hname, Ne.symm h]

def IsMajority (name : String) (children : List Child) : Prop :=
  children.length < 2 * (typesNamed name children).length

theorem IsMajority.typesNamed_ne_nil {name : String} {children : List Child}
    (h : IsMajority name children) : typesNamed name children ≠ [] := by
  intro hnil
  rw [IsMajority, hnil] at h
  cases h

theorem IsMajority.exists_child {name : String} {children : List Child}
    (h : IsMajority name children) : ∃ child ∈ children, child.name = name := by
  by_contra hnone
  push Not at hnone
  apply h.typesNamed_ne_nil
  simpa [typesNamed, List.filter_eq_nil_iff] using hnone

/-- Two names cannot both be in the majority, and so no other name is more frequent. -/
theorem dominantChild?_of_isMajority {r : Record} {name : String}
    (h : IsMajority name r.children) :
    dominantChild? r = some (name, (typesNamed name r.children).length) := by
  obtain ⟨child, hchild, hname⟩ := h.exists_child
  have hbest := isBest_dominantChild r
  cases hdominant : dominantChild? r with
  | none =>
      rw [hdominant] at hbest
      have hnil : r.children = [] := hbest
      rw [hnil] at hchild
      cases hchild
  | some best =>
      obtain ⟨dominant, most⟩ := best
      rw [hdominant] at hbest
      obtain ⟨hmost, hmax⟩ := hbest
      simp only at hmost hmax
      by_cases hsame : name = dominant
      · rw [hmost, hsame]
      · -- The two names together would have more children than there are.
        have hboth := length_typesNamed_add_le hsame r.children
        have hle := hmax child hchild
        rw [hname] at hle
        rw [IsMajority] at h
        omega

/-!
# Finding containers
-/

/-- The shape of a field whose container has the given children. -/
def collapsed (item : String) (children : List Child) : FieldShape :=
  { type := widest (typesNamed item children), isList := true, item, container := true }

def shapeOfItems? (candidates : List String) (children : List Child) (item : String)
    (count : Nat) : Option FieldShape :=
  if candidates.contains item ∧ children.length < count * 2 then do
    let type ← widenAll? (typesNamed item children)
    some { type, isList := true, item, container := true }
  else none

theorem shapeOfItems?_eq_some_iff {candidates : List String} {children : List Child}
    {item : String} {shape : FieldShape} :
    shapeOfItems? candidates children item (typesNamed item children).length = some shape ↔
      item ∈ candidates ∧ IsMajority item children ∧ collapsed item children = shape := by
  have hcondition : candidates.contains item ∧
      children.length < (typesNamed item children).length * 2 ↔
        item ∈ candidates ∧ IsMajority item children := by
    rw [List.contains_iff_mem, IsMajority, Nat.mul_comm]
  unfold shapeOfItems?
  rw [← and_assoc]
  by_cases h : item ∈ candidates ∧ IsMajority item children
  · rw [if_pos (hcondition.mpr h), widenAll?_eq_widest, if_neg h.2.typesNamed_ne_nil]
    simp [h, collapsed]
  · rw [if_neg (hcondition.not.mpr h)]
    simp [h]

def shapeWithin? (candidates : List String) (r : Record) : Option FieldShape :=
  (dominantChild? r).bind fun best => shapeOfItems? candidates r.children best.1 best.2

theorem shapeWithin?_eq_some_iff {candidates : List String} {r : Record} {shape : FieldShape} :
    shapeWithin? candidates r = some shape ↔
      ∃ item ∈ candidates, IsMajority item r.children ∧ collapsed item r.children = shape := by
  constructor
  · intro h
    obtain ⟨⟨dominant, count⟩, hdominant, hshape⟩ := Option.bind_eq_some_iff.mp h
    have hcount : count = (typesNamed dominant r.children).length := by
      have hbest := isBest_dominantChild r
      rw [hdominant] at hbest
      exact hbest.1
    rw [hcount, shapeOfItems?_eq_some_iff] at hshape
    exact ⟨dominant, hshape⟩
  · rintro ⟨item, hitem, hmajority, hshape⟩
    rw [shapeWithin?, dominantChild?_of_isMajority hmajority, Option.bind_some,
      shapeOfItems?_eq_some_iff]
    exact ⟨hitem, hmajority, hshape⟩

/-- The records in which a container is looked for: those of the child under its parent that have
children. -/
def isFilled (parent name : String) (r : Record) : Bool :=
  r.name = name ∧ r.parent = some parent ∧ r.hasChildren

theorem containerShape?_eq (m : Model) (naming : Convention) (parent name : String) :
    containerShape? m naming parent name =
      if (naming.candidates name).isEmpty then none
      else (m.records.find? (isFilled parent name)).bind (shapeWithin? (naming.candidates name)) :=
  rfl

/-- A field has a container if the first of its records with children has mostly children of one
name that the convention takes for a singular. -/
theorem containerShape?_eq_some_iff {m : Model} {naming : Convention} {parent name : String}
    {shape : FieldShape} :
    containerShape? m naming parent name = some shape ↔
      ∃ r, m.records.find? (isFilled parent name) = some r ∧
        ∃ item ∈ naming.candidates name, IsMajority item r.children ∧
          collapsed item r.children = shape := by
  rw [containerShape?_eq]
  by_cases hnone : naming.candidates name = []
  · simp [hnone]
  · have hsome : (naming.candidates name).isEmpty ≠ true := by
      simpa using hnone
    rw [if_neg hsome, Option.bind_eq_some_iff]
    simp only [shapeWithin?_eq_some_iff]

theorem containerShape?_container {m : Model} {naming : Convention} {parent name : String}
    {shape : FieldShape} (h : containerShape? m naming parent name = some shape) :
    shape.container = true ∧ shape.isList = true := by
  obtain ⟨_, _, _, _, _, rfl⟩ := containerShape?_eq_some_iff.mp h
  exact ⟨rfl, rfl⟩

/-!
# Merging containers
-/

def IsPlain (shape? : Option FieldShape) : Prop :=
  ∀ shape ∈ shape?, shape.container = false

theorem isPlain_shapeOf (item : String) (groups : List (List ElementType)) :
    IsPlain (shapeOf item groups) := by
  intro shape hshape
  obtain ⟨type, _, rfl⟩ := Option.map_eq_some_iff.mp hshape
  rfl

/-- Of shapes that are plain or one and the same container, the container is left if it is there at
all. -/
theorem mergeShapes_of_mem {container : FieldShape}
    (hcontainer : container.container = true ∧ container.isList = true)
    {shapes : List (Option FieldShape)}
    (hshapes : ∀ shape? ∈ shapes, shape? = some container ∨ IsPlain shape?)
    (hmem : some container ∈ shapes) : mergeShapes shapes = some container := by
  have hmem' : container ∈ shapes.reduceOption := List.reduceOption_mem_iff.mpr hmem
  have hmerged : mergedShape shapes.reduceOption = container := by
    apply mergedShape_eq_container hcontainer hmem'
    intro shape hshape hkind
    rcases hshapes _ (List.reduceOption_mem_iff.mp hshape) with hsame | hplain
    · exact Option.some_inj.mp hsame
    · rw [hplain shape rfl] at hkind
      cases hkind
  rw [mergeShapes_eq_mergedShape, if_neg (List.ne_nil_of_mem hmem'), hmerged]

/-!
# The shapes of fields with containers
-/

/-- The field of the record is one element, and this has children. -/
def HoldsOne (name : String) (r : Record) : Prop :=
  typesNamed name r.children = [.composite]

theorem get?_resolve_of_not_holdsOne {name : String} {r : Record} (h : ¬ HoldsOne name r)
    (m : Model) (naming : Convention) :
    (resolve m naming r).get? name = shapeOf name [typesNamed name r.children] := by
  rw [resolve, NameMap.get?_mapValues, get?_plainFields]
  unfold HoldsOne at h
  rcases htypes : typesNamed name r.children with _ | ⟨type, _ | ⟨next, types⟩⟩
  · rfl
  · have hprimitive : type.isComposite = false := by
      rw [htypes] at h
      simpa [isComposite] using h
    simp [shapeOf, widenAll?, hprimitive]
  · simp [shapeOf, widenAll?]

theorem get?_resolve_of_holdsOne {name : String} {r : Record} (h : HoldsOne name r)
    (m : Model) (naming : Convention) :
    (resolve m naming r).get? name =
      (containerShape? m naming r.name name).or (shapeOf name [typesNamed name r.children]) := by
  rw [resolve, NameMap.get?_mapValues, get?_plainFields, h]
  cases hcontainer : containerShape? m naming r.name name <;>
    simp [shapeOf, widenAll?, isComposite]

def fieldAt? (fields : NameMap Fields) (parent name : String) : Option FieldShape :=
  (fields.get? parent).bind (·.get? name)

/-- A field collapses if it has a container and a record of the parent holds one element with
children. -/
structure Collapses (m : Model) (naming : Convention) (parent name : String)
    (container : FieldShape) : Prop where
  found : containerShape? m naming parent name = some container
  held : ∃ r ∈ m.compositeRecords, r.name = parent ∧ HoldsOne name r

section Resolved

variable {m : Model} {naming : Convention} {parent name : String}

theorem fieldAt?_eq_mergeShapes (m : Model) (naming : Convention) (parent name : String) :
    fieldAt? (resolveAll m naming) parent name =
      mergeShapes (shapesIn m naming m.compositeRecords parent name) :=
  (holdsResolved_resolveAll m naming).shapes parent name

theorem fieldAt?_of_collapses {container : FieldShape}
    (h : Collapses m naming parent name container) :
    fieldAt? (resolveAll m naming) parent name = some container := by
  have hresolve : ∀ r, r.name = parent → HoldsOne name r →
      (resolve m naming r).get? name = some container := by
    rintro r rfl hone
    rw [get?_resolve_of_holdsOne hone, h.found, Option.some_or]
  rw [fieldAt?_eq_mergeShapes]
  apply mergeShapes_of_mem (containerShape?_container h.found)
  · intro shape? hshape
    obtain ⟨r, hr, rfl⟩ := List.mem_map.mp hshape
    have hname : r.name = parent := of_decide_eq_true (List.mem_filter.mp hr).2
    by_cases hone : HoldsOne name r
    · exact Or.inl (hresolve r hname hone)
    · rw [get?_resolve_of_not_holdsOne hone]
      exact Or.inr (isPlain_shapeOf _ _)
  · obtain ⟨r, hr, hname, hone⟩ := h.held
    refine List.mem_map.mpr ⟨r, ?_, hresolve r hname hone⟩
    exact List.mem_filter.mpr ⟨hr, decide_eq_true hname⟩

theorem fieldAt?_of_not_collapses (h : ∀ container, ¬ Collapses m naming parent name container) :
    fieldAt? (resolveAll m naming) parent name =
      fieldAt? (resolveAll m .noContainers) parent name := by
  rw [fieldAt?_eq_mergeShapes, fieldAt?_eq_mergeShapes]
  congr 1
  apply List.map_congr_left
  intro r hr
  obtain ⟨hmem, hname⟩ := List.mem_filter.mp hr
  rw [resolve_noContainers, get?_plainFields]
  by_cases hone : HoldsOne name r
  · have hnone : containerShape? m naming r.name name = none := by
      rw [of_decide_eq_true hname, Option.eq_none_iff_forall_ne_some]
      intro container hfound
      exact h container ⟨hfound, r, hmem, of_decide_eq_true hname, hone⟩
    rw [get?_resolve_of_holdsOne hone, hnone, Option.none_or]
  · exact get?_resolve_of_not_holdsOne hone m naming

theorem Collapses.exists_plain {container : FieldShape}
    (h : Collapses m naming parent name container) :
    ∃ plain, fieldAt? (resolveAll m .noContainers) parent name = some plain ∧
      plain.type = .composite := by
  have hmem : ElementType.composite ∈ (typeGroups m.compositeRecords parent name).flatten := by
    obtain ⟨r, hr, hname, hone⟩ := h.held
    have hgroup : typesNamed name r.children ∈ typeGroups m.compositeRecords parent name :=
      List.mem_map_of_mem (List.mem_filter.mpr ⟨hr, decide_eq_true hname⟩)
    rw [HoldsOne] at hone
    rw [hone] at hgroup
    exact List.mem_flatten_of_mem hgroup List.mem_cons_self
  rw [fieldAt?, shapes_resolveAll_noContainers, shapeOf, widenAll?_eq_widest,
    if_neg (List.ne_nil_of_mem hmem)]
  exact ⟨_, rfl, if_pos hmem⟩

end Resolved

end Schema
end XmlShape
