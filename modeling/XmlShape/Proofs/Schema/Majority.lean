import XmlShape.Proofs.Schema.Rearrangement

/-!
# Majorities

The test for a container takes one most frequent child first, and asks only then whether more than
half of the children have its name and whether the name is a candidate. Which of two equally
frequent names is taken depends on the order of the children. But only one name can be in the
majority, and it is taken in any order, so the test is a search for it among the candidates.
-/

namespace XmlShape
namespace Schema

open Naming

def Record.countNamed (r : Record) (name : String) : Nat :=
  r.children.countP (·.name = name)

theorem length_typesNamed_eq_countNamed (r : Record) (name : String) :
    (typesNamed name r.children).length = r.countNamed name := by
  rw [typesNamed, List.length_map, Record.countNamed, List.countP_eq_length_filter]

/-!
# Equally frequent names
-/

theorem argmax_eq_find? {α : Type} [DecidableEq α] (f : α → Nat) (xs : List α) :
    xs.argmax f = xs.find? fun x => ∀ y ∈ xs, f y ≤ f x := by
  symm
  cases hbest : xs.argmax f with
  | none =>
      rw [List.argmax_eq_none.mp hbest]
      rfl
  | some best =>
      rcases List.argmax_eq_some_iff.mp hbest with ⟨hmem, hmax, hfirst⟩
      rcases List.eq_append_cons_of_mem hmem with ⟨before, after, hxs, hnew⟩
      have hplace : xs.idxOf best = before.length := by
        rw [hxs, List.idxOf_append_of_notMem hnew, List.idxOf_cons_self, Nat.add_zero]
      rw [List.find?_eq_some_iff_append]
      refine ⟨decide_eq_true hmax, before, after, hxs, ?_⟩
      intro x hx
      rw [Bool.not_eq_true', decide_eq_false_iff_not]
      intro hx_max
      -- No earlier item is as good as the best, because the best has the least index.
      have hle : before.length ≤ xs.idxOf x := by
        rw [← hplace]
        exact hfirst x (hxs ▸ List.mem_append_left _ hx) (hx_max best hmem)
      have hlt : xs.idxOf x < before.length := by
        rw [hxs, List.idxOf_append_of_mem hx]
        exact List.idxOf_lt_length_of_mem hx
      exact absurd hle (Nat.not_le_of_lt hlt)

theorem dominantChild?_eq_find? (r : Record) :
    dominantChild? r =
      (r.children.find? fun child =>
          ∀ other ∈ r.children, r.countNamed other.name ≤ r.countNamed child.name).map
        fun child => (child.name, r.countNamed child.name) := by
  rw [dominantChild?_eq_argmax]
  simp only [length_typesNamed_eq_countNamed]
  rw [argmax_eq_find?]

example :
    let note : Child := { name := "note", type := .string, parent := "books" }
    let book : Child := { name := "book", type := .string, parent := "books" }
    let books : Record :=
      { name := "books", type := .composite, parent := some "shelf", children := [note, book]
        attributes := .empty, occurrences := 1, depth := 1 }
    dominantChild? books = some ("note", 1) ∧
      dominantChild? { books with children := [book, note] } = some ("book", 1) := by
  decide +kernel

/-!
# Strict majorities
-/

theorem isMajority_iff {r : Record} {name : String} :
    IsMajority name r.children ↔ r.children.length < 2 * r.countNamed name := by
  rw [IsMajority, length_typesNamed_eq_countNamed]

theorem IsMajority.unique {r : Record} {name other : String} (h : IsMajority name r.children)
    (h' : IsMajority other r.children) : name = other := by
  have hdominant := dominantChild?_of_isMajority h
  rw [dominantChild?_of_isMajority h', Option.some_inj, Prod.mk.injEq] at hdominant
  exact hdominant.1.symm

/-!
# Order
-/

theorem SameUpToOrder.isMajority_iff {r r' : Record} (h : SameUpToOrder r r') (name : String) :
    IsMajority name r.children ↔ IsMajority name r'.children := by
  rw [IsMajority, IsMajority, h.children.length_eq, (h.typesNamed_perm name).length_eq]

theorem SameUpToOrder.collapsed_eq {r r' : Record} (h : SameUpToOrder r r') (item : String) :
    collapsed item r.children = collapsed item r'.children := by
  rw [collapsed, collapsed, widest_perm (h.typesNamed_perm item)]

theorem SameUpToOrder.isFilled_eq {r r' : Record} (h : SameUpToOrder r r')
    (parent name : String) : isFilled parent name r = isFilled parent name r' := by
  rw [isFilled, isFilled, Record.hasChildren, Record.hasChildren, h.name, h.parent,
    h.children.isEmpty_eq]

theorem containerShape?_unordered {m m' : Model} {naming naming' : Convention}
    {parent name : String} (hrecords : List.Forall₂ SameUpToOrder m.records m'.records)
    (hcandidates : (naming.candidates name).Perm (naming'.candidates name)) :
    containerShape? m naming parent name = containerShape? m' naming' parent name := by
  have hfind : Option.Rel SameUpToOrder (m.records.find? (isFilled parent name))
      (m'.records.find? (isFilled parent name)) :=
    find?_of_forall₂ (fun r r' h => (h.isFilled_eq parent name).symm) hrecords
  ext shape
  rw [containerShape?_eq_some_iff, containerShape?_eq_some_iff]
  generalize m.records.find? (isFilled parent name) = r? at hfind ⊢
  generalize m'.records.find? (isFilled parent name) = r'? at hfind ⊢
  cases hfind with
  | none =>
      simp
  | some h =>
      simp [h.isMajority_iff, h.collapsed_eq, hcandidates.mem_iff]

/-!
# Containers by majority
-/

/-- How the container of a field is found: the first record of the child under its parent that has
children tells of a container if more than half of these children have the name of a candidate. -/
structure ByMajority (m : Model) (naming : Convention) (parent name : String) : Prop where
  found : ∀ shape, containerShape? m naming parent name = some shape ↔
    ∃ r, m.records.find? (isFilled parent name) = some r ∧
      ∃ item ∈ naming.candidates name, r.children.length < 2 * r.countNamed item ∧
        shape =
          { type := widest (typesNamed item r.children), isList := true, item, container := true }
  unique : ∀ (r : Record) (item other : String), r.children.length < 2 * r.countNamed item →
    r.children.length < 2 * r.countNamed other → item = other
  /-- Neither the order of the children nor that of the candidates matters. -/
  unordered : ∀ (m' : Model) (naming' : Convention),
    List.Forall₂ SameUpToOrder m.records m'.records →
    (naming.candidates name).Perm (naming'.candidates name) →
    containerShape? m' naming' parent name = containerShape? m naming parent name
  /-- Of the most frequent children the first is taken. -/
  dominant : ∀ r : Record, dominantChild? r =
    (r.children.find? fun child =>
        ∀ other ∈ r.children, r.countNamed other.name ≤ r.countNamed child.name).map
      fun child => (child.name, r.countNamed child.name)

theorem containerShape?_byMajority (m : Model) (naming : Convention) (parent name : String) :
    ByMajority m naming parent name := by
  constructor
  · intro shape
    simp only [containerShape?_eq_some_iff, isMajority_iff, collapsed, eq_comm (a := shape)]
  · intro r item other hitem hother
    exact IsMajority.unique (isMajority_iff.mpr hitem) (isMajority_iff.mpr hother)
  · intro m' naming' hrecords hcandidates
    exact (containerShape?_unordered hrecords hcandidates).symm
  · exact dominantChild?_eq_find?

end Schema
end XmlShape
