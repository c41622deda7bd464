import XmlShape.Schema.Classify

/-!
# The places of a tree

The elements of a tree are listed in the order in which their records are made: the children from
left to right, and then the element itself. Each is listed with the names of the elements around
it.
-/

namespace XmlShape
namespace Schema

/-- An element of a tree and the names of its ancestors, innermost first. -/
structure Visit where
  element : Element
  ancestors : List String

namespace Visit

def parent (v : Visit) : Option String :=
  v.ancestors.head?

def level (v : Visit) : Nat :=
  v.ancestors.length

def path (v : Visit) : List String :=
  v.element.name :: v.ancestors

def IsChildOf (v u : Visit) : Prop :=
  v.element ∈ u.element.children ∧ v.ancestors = u.path

end Visit

mutual

/-- The places of a tree whose root has the given ancestors. -/
def visits (ancestors : List String) : Element → List Visit
  | ⟨name, attributes, children, text⟩ =>
      visitsAll (name :: ancestors) children ++ [⟨⟨name, attributes, children, text⟩, ancestors⟩]

def visitsAll (ancestors : List String) : List Element → List Visit
  | [] => []
  | e :: es => visits ancestors e ++ visitsAll ancestors es

end

theorem visits_eq (ancestors : List String) (e : Element) :
    visits ancestors e = visitsAll (e.name :: ancestors) e.children ++ [⟨e, ancestors⟩] := by
  cases e
  rfl

def elements (root : Element) : List Element :=
  (visits [] root).map (·.element)

def names (root : Element) : List String :=
  (elements root).map (·.name)

/-!
# Ancestors do not matter to what is listed
-/

mutual

theorem map_element_visits (ancestors others : List String) : (e : Element) →
    (visits ancestors e).map (·.element) = (visits others e).map (·.element)
  | ⟨name, attributes, children, text⟩ => by
      simp only [visits, List.map_append, List.map_cons, List.map_nil]
      rw [map_element_visitsAll (name :: ancestors) (name :: others) children]

theorem map_element_visitsAll (ancestors others : List String) : (es : List Element) →
    (visitsAll ancestors es).map (·.element) = (visitsAll others es).map (·.element)
  | [] => rfl
  | e :: es => by
      simp only [visitsAll, List.map_append]
      rw [map_element_visits ancestors others e, map_element_visitsAll ancestors others es]

end

theorem map_element_visits_eq (ancestors : List String) (e : Element) :
    (visits ancestors e).map (·.element) = elements e :=
  map_element_visits ancestors [] e

theorem map_element_visitsAll_eq (ancestors : List String) (es : List Element) :
    (visitsAll ancestors es).map (·.element) = es.flatMap elements := by
  induction es with
  | nil =>
      rfl
  | cons e es ih =>
      rw [visitsAll, List.map_append, ih, map_element_visits_eq, List.flatMap_cons]

theorem elements_eq (e : Element) : elements e = e.children.flatMap elements ++ [e] := by
  rw [elements, visits_eq, List.map_append, map_element_visitsAll_eq]
  rfl

theorem names_eq (e : Element) : names e = e.children.flatMap names ++ [e.name] := by
  rw [names, elements_eq, List.map_append, List.map_flatMap]
  rfl

/-!
# Sizes
-/

mutual

theorem length_elements : (e : Element) → (elements e).length = e.count
  | ⟨name, attributes, children, text⟩ => by
      rw [elements_eq, List.length_append, length_elementsAll children, Element.count_eq]
      exact Nat.add_comm _ _

theorem length_elementsAll : (es : List Element) →
    (es.flatMap elements).length = Element.countAll es
  | [] => rfl
  | e :: es => by
      rw [List.flatMap_cons, List.length_append, length_elements e, length_elementsAll es]
      rfl

end

/-!
# The root among the places
-/

mutual

theorem suffix_ancestors (ancestors : List String) : (e : Element) →
    ∀ v ∈ visits ancestors e, ancestors <:+ v.ancestors
  | ⟨name, attributes, children, text⟩ => by
      intro v hv
      rw [visits, List.mem_append, List.mem_singleton] at hv
      rcases hv with hv | rfl
      · exact (List.suffix_cons name ancestors).trans
          (suffix_ancestorsAll (name :: ancestors) children v hv)
      · exact List.suffix_rfl

theorem suffix_ancestorsAll (ancestors : List String) : (es : List Element) →
    ∀ v ∈ visitsAll ancestors es, ancestors <:+ v.ancestors
  | [] => by
      intro v hv
      cases hv
  | e :: es => by
      intro v hv
      rw [visitsAll, List.mem_append] at hv
      rcases hv with hv | hv
      · exact suffix_ancestors ancestors e v hv
      · exact suffix_ancestorsAll ancestors es v hv

end

theorem visits_root (root : Element) :
    ∃ below, visits [] root = below ++ [⟨root, []⟩] ∧ ∀ v ∈ below, v.parent ≠ none := by
  refine ⟨visitsAll [root.name] root.children, visits_eq [] root, ?_⟩
  intro v hv hnone
  have hempty : v.ancestors = [] := List.head?_eq_none_iff.mp hnone
  have hsuffix := suffix_ancestorsAll [root.name] root.children v hv
  rw [hempty] at hsuffix
  cases List.suffix_nil.mp hsuffix

/-!
# Parents and children

Each place but the root is that of a child of an element in another place, and every child of an
element has such a place.
-/

theorem root_mem_visits (ancestors : List String) (e : Element) :
    ⟨e, ancestors⟩ ∈ visits ancestors e := by
  rw [visits_eq]
  exact List.mem_append_right _ List.mem_cons_self

theorem mem_visitsAll {ancestors : List String} {es : List Element} {v : Visit} :
    v ∈ visitsAll ancestors es ↔ ∃ e ∈ es, v ∈ visits ancestors e := by
  induction es with
  | nil =>
      simp [visitsAll]
  | cons e es ih =>
      simp [visitsAll, ih]

mutual

theorem child_mem_visits (ancestors : List String) : (e : Element) →
    ∀ v ∈ visits ancestors e, ∀ child ∈ v.element.children,
      ⟨child, v.path⟩ ∈ visits ancestors e
  | ⟨name, attributes, children, text⟩ => by
      intro v hv child hchild
      rw [visits, List.mem_append] at hv ⊢
      apply Or.inl
      rcases hv with hv | hv
      · exact child_mem_visitsAll (name :: ancestors) children v hv child hchild
      · rw [List.mem_singleton] at hv
        subst hv
        exact mem_visitsAll.mpr ⟨child, hchild, root_mem_visits (name :: ancestors) child⟩

theorem child_mem_visitsAll (ancestors : List String) : (es : List Element) →
    ∀ v ∈ visitsAll ancestors es, ∀ child ∈ v.element.children,
      ⟨child, v.path⟩ ∈ visitsAll ancestors es
  | [] => by
      intro v hv
      cases hv
  | e :: es => by
      intro v hv child hchild
      rw [visitsAll, List.mem_append] at hv ⊢
      rcases hv with hv | hv
      · exact Or.inl (child_mem_visits ancestors e v hv child hchild)
      · exact Or.inr (child_mem_visitsAll ancestors es v hv child hchild)

end

mutual

theorem parent_mem_visits (ancestors : List String) : (e : Element) →
    ∀ v ∈ visits ancestors e, v = ⟨e, ancestors⟩ ∨ ∃ u ∈ visits ancestors e, v.IsChildOf u
  | ⟨name, attributes, children, text⟩ => by
      intro v hv
      rw [visits, List.mem_append, List.mem_singleton] at hv
      rcases hv with hv | rfl
      · apply Or.inr
        rcases parent_mem_visitsAll (name :: ancestors) children v hv with
          ⟨hmem, hancestors⟩ | ⟨u, hu, hchild⟩
        · exact ⟨_, root_mem_visits ancestors _, hmem, hancestors⟩
        · refine ⟨u, ?_, hchild⟩
          rw [visits]
          exact List.mem_append_left _ hu
      · exact Or.inl rfl

theorem parent_mem_visitsAll (ancestors : List String) : (es : List Element) →
    ∀ v ∈ visitsAll ancestors es,
      v.element ∈ es ∧ v.ancestors = ancestors ∨ ∃ u ∈ visitsAll ancestors es, v.IsChildOf u
  | [] => by
      intro v hv
      cases hv
  | e :: es => by
      intro v hv
      rw [visitsAll, List.mem_append] at hv
      rcases hv with hv | hv
      · rcases parent_mem_visits ancestors e v hv with rfl | ⟨u, hu, hchild⟩
        · exact Or.inl ⟨List.mem_cons_self, rfl⟩
        · exact Or.inr ⟨u, List.mem_append_left _ hu, hchild⟩
      · rcases parent_mem_visitsAll ancestors es v hv with ⟨hmem, hancestors⟩ | ⟨u, hu, hchild⟩
        · exact Or.inl ⟨List.mem_cons_of_mem _ hmem, hancestors⟩
        · exact Or.inr ⟨u, List.mem_append_right _ hu, hchild⟩

end

/-- What holds of the root and of the children of an element of which it holds, holds in every
place. -/
theorem visit_induction {root : Element} {P : Visit → Prop} (hroot : P ⟨root, []⟩)
    (hchild : ∀ u ∈ visits [] root, P u → ∀ v ∈ visits [] root, v.IsChildOf u → P v) :
    ∀ v ∈ visits [] root, P v := by
  intro v hv
  induction hancestors : v.ancestors generalizing v with
  | nil =>
      rcases parent_mem_visits [] root v hv with rfl | ⟨u, _, hmem, huv⟩
      · exact hroot
      · rw [hancestors] at huv
        cases huv
  | cons parent ancestors ih =>
      rcases parent_mem_visits [] root v hv with rfl | ⟨u, hu, hmem, huv⟩
      · cases hancestors
      · have hu' : P u := by
          apply ih u hu
          rw [hancestors, Visit.path, List.cons.injEq] at huv
          exact huv.2.symm
        exact hchild u hu hu' v hv ⟨hmem, huv⟩

theorem mem_elements {root e : Element} :
    e ∈ elements root ↔ ∃ v ∈ visits [] root, v.element = e := by
  rw [elements, List.mem_map]

theorem exists_visit_iff_exists_child {root child : Element} {parent : String} :
    (∃ v ∈ visits [] root, v.parent = some parent ∧ v.element = child) ↔
      ∃ e ∈ elements root, e.name = parent ∧ child ∈ e.children := by
  constructor
  · rintro ⟨v, hv, hparent, rfl⟩
    rcases parent_mem_visits [] root v hv with rfl | ⟨u, hu, hmem, hancestors⟩
    · cases hparent
    · rw [Visit.parent, hancestors, Visit.path, List.head?_cons, Option.some_inj] at hparent
      exact ⟨u.element, mem_elements.mpr ⟨u, hu, rfl⟩, hparent, hmem⟩
  · rintro ⟨e, he, rfl, hchild⟩
    obtain ⟨u, hu, rfl⟩ := mem_elements.mp he
    exact ⟨_, child_mem_visits [] root u hu child hchild, rfl, rfl⟩

/-- An element of one name has a child of the other. -/
def Contains (root : Element) (parent name : String) : Prop :=
  ∃ e ∈ elements root, e.name = parent ∧ ∃ child ∈ e.children, child.name = name

theorem exists_visit_iff_contains {root : Element} {parent name : String} :
    (∃ v ∈ visits [] root, v.parent = some parent ∧ v.element.name = name) ↔
      Contains root parent name := by
  constructor
  · rintro ⟨v, hv, hparent, rfl⟩
    obtain ⟨e, he, hname, hchild⟩ := exists_visit_iff_exists_child.mp ⟨v, hv, hparent, rfl⟩
    exact ⟨e, he, hname, v.element, hchild, rfl⟩
  · rintro ⟨e, he, hname, child, hchild, rfl⟩
    obtain ⟨v, hv, hparent, rfl⟩ := exists_visit_iff_exists_child.mpr ⟨e, he, hname, hchild⟩
    exact ⟨v, hv, hparent, rfl⟩

/-!
# Types
-/

def typeOf (truthValues : Bool) (e : Element) : ElementType :=
  if e.children = [] then classifyText truthValues e.text else .composite

theorem classify_eq_typeOf (truthValues : Bool) (e : Element) :
    classify truthValues e = typeOf truthValues e := by
  unfold classify typeOf Element.hasChildren
  cases e.children <;> rfl

theorem classifyText_ne_composite (truthValues : Bool) (text : String) :
    classifyText truthValues text ≠ .composite := by
  unfold classifyText classifyChars
  intro h
  repeat
    split at h
    · cases h
  cases h

theorem typeOf_eq_composite {truthValues : Bool} {e : Element} :
    typeOf truthValues e = .composite ↔ e.children ≠ [] := by
  unfold typeOf
  split
  · next h => simp [h, classifyText_ne_composite]
  · next h => simp [h]

end Schema
end XmlShape
