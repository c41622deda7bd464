import XmlShape.Proofs.Schema.Cycles
import XmlShape.Proofs.Schema.Depth
import XmlShape.Proofs.Schema.Survey

/-!
# Recursion in trees

In a scanned tree a cycle of names need not lie on one path: it is put together from what elements
of the same name contain in different places. A name that is met again further down a path is on a
cycle, and so a tree without cycles is no deeper than it has names.
-/

open Relation

namespace XmlShape
namespace Schema

section Paths

variable {root : Element}

theorem name_mem_names {v : Visit} (hv : v ∈ visits [] root) : v.element.name ∈ names root :=
  List.mem_map_of_mem (mem_elements.mpr ⟨v, hv, rfl⟩)

theorem Contains.mem_names {parent name : String} (h : Contains root parent name) :
    parent ∈ names root ∧ name ∈ names root := by
  obtain ⟨v, hv, _, hname⟩ := exists_visit_iff_contains.mpr h
  obtain ⟨e, he, hparent, _⟩ := h
  rw [← hparent, ← hname]
  exact ⟨List.mem_map_of_mem he, name_mem_names hv⟩

theorem nests_scan (options : ScanOptions) : Nests (scan options root) = Contains root := by
  funext parent name
  rw [Nests, exists_record_scan, mem_distinctNames_scan, mem_distinctNames_scan, eq_iff_iff]
  constructor
  · rintro ⟨_, _, hcontains⟩
    exact hcontains
  · intro hcontains
    exact ⟨hcontains.mem_names.1, hcontains.mem_names.2, hcontains⟩

theorem contains_of_isChildOf {u v : Visit} (hu : u ∈ visits [] root) (h : v.IsChildOf u) :
    Contains root u.element.name v.element.name :=
  ⟨u.element, mem_elements.mpr ⟨u, hu, rfl⟩, rfl, v.element, h.1, rfl⟩

theorem way_of_mem_ancestors : ∀ v ∈ visits [] root, ∀ name ∈ v.ancestors,
    TransGen (Contains root) name v.element.name := by
  apply visit_induction
  · intro name hname
    cases hname
  · intro u hu ih v _ hchild name hname
    have hlast := contains_of_isChildOf hu hchild
    rw [hchild.2] at hname
    rcases List.mem_cons.mp hname with rfl | hname
    · exact TransGen.single hlast
    · exact (ih name hname).tail hlast

theorem path_subset : ∀ v ∈ visits [] root, v.path ⊆ names root := by
  apply visit_induction
  · intro name hname
    rw [Visit.path, List.mem_singleton] at hname
    rw [hname]
    exact name_mem_names (root_mem_visits [] root)
  · intro u _ ih v hv hchild name hname
    rcases List.mem_cons.mp hname with rfl | hname
    · exact name_mem_names hv
    · rw [hchild.2] at hname
      exact ih hname

theorem nodup_path (h : ∀ v ∈ visits [] root, v.element.name ∉ v.ancestors) :
    ∀ v ∈ visits [] root, v.path.Nodup := by
  apply visit_induction
  · exact List.nodup_singleton _
  · intro u _ ih v hv hchild
    rw [Visit.path, List.nodup_cons]
    constructor
    · exact h v hv
    · rw [hchild.2]
      exact ih

theorem depth_le_of_not_mem_ancestors
    (h : ∀ v ∈ visits [] root, v.element.name ∉ v.ancestors) :
    root.depth ≤ (names root).dedup.length := by
  obtain ⟨v, hv, hlength⟩ := exists_visit_depth root
  rw [← hlength]
  apply (nodup_path h v hv).length_le_of_subset
  intro name hname
  exact List.mem_dedup.mpr (path_subset v hv hname)

end Paths

/-!
# Recursive names
-/

section RecursiveNames

variable {components : NameGraph → List (List String)}

theorem mem_recursiveNamesBy_of_mem_ancestors
    (hcomponents : ∀ g : NameGraph, g.IsComponents (components g)) (options : ScanOptions)
    {root : Element} {v : Visit} (hv : v ∈ visits [] root) (h : v.element.name ∈ v.ancestors) :
    v.element.name ∈ recursiveNamesBy components (scan options root) := by
  rw [mem_recursiveNamesBy hcomponents, nests_scan]
  exact way_of_mem_ancestors v hv v.element.name h

theorem recursiveNames_of_components {m : Model} {found : List (List String)} {cyclic : List String}
    (hcomponents : (nameGraph m).components = found)
    (hcycles : (found.filter (nameGraph m).hasCycle).flatten = cyclic)
    (hsorted : cyclic.Pairwise (· ≤ ·)) : recursiveNames m = cyclic := by
  rw [recursiveNames, recursiveNamesBy, hcomponents, hcycles]
  exact List.mergeSort_of_pairwise (hsorted.imp decide_eq_true)

/-- The recursive names of a model are those on a closed way through counted names, in ascending
order, however the strongly connected components have been found. In a tree they include each name
that is met again below itself, and a tree without any is no deeper than it has names. -/
theorem recursiveNamesBy_iff_cycle (components : NameGraph → List (List String))
    (hcomponents : ∀ g : NameGraph, g.IsComponents (components g)) :
    (∀ m : Model, (recursiveNamesBy components m).Pairwise (· < ·) ∧
      ∀ name, name ∈ recursiveNamesBy components m ↔
        name ∈ m.distinctNames ∧ TransGen (Nests m) name name) ∧
    ∀ (config : Config) (root : Element),
      (∀ v ∈ visits [] root, v.element.name ∈ v.ancestors →
        v.element.name ∈ recursiveNamesBy components (scan config.scanning root)) ∧
      (recursiveNamesBy components (scan config.scanning root) = [] →
        root.depth ≤ (names root).dedup.length) := by
  constructor
  · intro m
    refine ⟨sorted_recursiveNamesBy hcomponents m, ?_⟩
    intro name
    rw [mem_recursiveNamesBy hcomponents]
    constructor
    · intro hway
      obtain ⟨next, hnests, _⟩ := TransGen.head'_iff.mp hway
      exact ⟨hnests.1, hway⟩
    · rintro ⟨_, hway⟩
      exact hway
  · intro config root
    have hlisted : ∀ v ∈ visits [] root, v.element.name ∈ v.ancestors →
        v.element.name ∈ recursiveNamesBy components (scan config.scanning root) := by
      intro v hv hname
      exact mem_recursiveNamesBy_of_mem_ancestors hcomponents config.scanning hv hname
    refine ⟨hlisted, ?_⟩
    intro hnil
    apply depth_le_of_not_mem_ancestors
    intro v hv hname
    have hmem := hlisted v hv hname
    rw [hnil] at hmem
    cases hmem

/-- The names `a` and `b` contain each other in different places; `c` and `d` do so too, but `d` is
not counted. -/
def crossedModel : Model where
  root := "a"
  records := [("b", "a"), ("a", "b"), ("d", "c"), ("c", "d")].map fun (name, parent) =>
    { name, type := .string, parent := some parent, children := [], attributes := .empty,
      occurrences := 1, depth := 1 }
  frequency := .ofList [("a", 1), ("b", 1), ("c", 1)]
  patterns := []

def nestedTree : Element :=
  ⟨"section", [], [⟨"part", [], [⟨"section", [], [], ""⟩], ""⟩], ""⟩

def flatTree : Element :=
  ⟨"section", [], [⟨"title", [], [], ""⟩, ⟨"part", [], [], ""⟩], ""⟩

theorem recursiveNames_crossedModel :
    (∀ g : NameGraph, g.IsComponents g.components) ∧
      recursiveNames crossedModel = ["a", "b"] ∧
      (∀ name, name ∈ ["a", "b"] ↔
        name ∈ crossedModel.distinctNames ∧ TransGen (Nests crossedModel) name name) ∧
      "section" ∈ recursiveNames (scan ({} : Config).scanning nestedTree) ∧
      recursiveNames (scan ({} : Config).scanning flatTree) = [] ∧
      flatTree.depth ≤ (names flatTree).dedup.length := by
  have h := recursiveNamesBy_iff_cycle NameGraph.components NameGraph.isComponents_components
  have hcrossed : recursiveNames crossedModel = ["a", "b"] := by
    have hnames : (nameGraph crossedModel).names = ["a", "b", "c"] := rfl
    have hlinks : (nameGraph crossedModel).links = [("a", "b"), ("b", "a")] := rfl
    have hcomponents : (nameGraph crossedModel).components =
        [["a", "b"], ["a", "b"], ["c"]].eraseDups := by
      simp [NameGraph.components, NameGraph.reachable, hnames, hlinks, reach, successors]
    exact recursiveNames_of_components hcomponents rfl (by decide)
  have hflat : recursiveNames (scan ({} : Config).scanning flatTree) = [] := by
    have hnames : (nameGraph (scan ({} : Config).scanning flatTree)).names =
        ["part", "section", "title"] := rfl
    have hlinks : (nameGraph (scan ({} : Config).scanning flatTree)).links =
        [("section", "title"), ("section", "part")] := rfl
    have hcomponents : (nameGraph (scan ({} : Config).scanning flatTree)).components =
        [["part"], ["section"], ["title"]].eraseDups := by
      simp [NameGraph.components, NameGraph.reachable, hnames, hlinks, reach, successors]
    exact recursiveNames_of_components hcomponents rfl (by decide)
  refine ⟨NameGraph.isComponents_components, hcrossed, ?_, ?_, hflat, ?_⟩
  · rw [← hcrossed]
    exact (h.1 crossedModel).2
  · exact (h.2 {} nestedTree).1 ⟨⟨"section", [], [], ""⟩, ["part", "section"]⟩
      (by simp [nestedTree, visits, visitsAll]) (by simp)
  · exact (h.2 {} flatTree).2 hflat

end RecursiveNames

end Schema
end XmlShape
