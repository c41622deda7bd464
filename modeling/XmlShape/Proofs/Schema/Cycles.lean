import Mathlib.Data.List.Perm.Lattice
import Mathlib.Logic.Relation
import XmlShape.Proofs.FirstOccurrence
import XmlShape.Schema.Recursion

/-!
# Cycles of names

A search finds the ends of all ways that start at a name, the components that are made from these
searches are the strongly connected ones, and the names of the components that have a cycle are the
names on cycles. The last step does not depend on how the components have been found.
-/

open Relation

namespace XmlShape
namespace Schema

namespace NameGraph

def Linked (g : NameGraph) (a b : String) : Prop :=
  (a, b) ∈ g.links

variable {g : NameGraph}

theorem Linked.mem_names {a b : String} (h : g.Linked a b) : a ∈ g.names ∧ b ∈ g.names :=
  g.mem_of_link (a, b) h

theorem mem_names_of_way {a b : String} (h : TransGen g.Linked a b) : b ∈ g.names := by
  cases h with
  | single hlink =>
      exact hlink.mem_names.2
  | tail _ hlink =>
      exact hlink.mem_names.2

theorem mem_successors {name other : String} :
    other ∈ successors g.links name ↔ g.Linked name other := by
  simp [successors, Linked]

/-!
# Searching
-/

/-- A search from a name: it has only met ends of ways from there, and whatever follows the name or
one that has been seen has been met. -/
structure Searches (g : NameGraph) (source : String) (seen pending : List String) : Prop where
  sound : ∀ name, name ∈ seen ∨ name ∈ pending → TransGen g.Linked source name
  start : ∀ name, g.Linked source name → name ∈ seen ∨ name ∈ pending
  closed : ∀ a ∈ seen, ∀ b, g.Linked a b → b ∈ seen ∨ b ∈ pending

theorem searches_start (g : NameGraph) (source : String) :
    g.Searches source [] (successors g.links source) := by
  constructor
  · rintro name (hname | hname)
    · cases hname
    · exact TransGen.single (mem_successors.mp hname)
  · intro name hlink
    exact Or.inr (mem_successors.mpr hlink)
  · intro a ha
    cases ha

theorem Searches.visit {source name : String} {seen pending : List String}
    (h : g.Searches source seen (name :: pending)) :
    g.Searches source (name :: seen) (successors g.links name ++ pending) := by
  have hmet : ∀ other, other ∈ seen ∨ other ∈ name :: pending →
      other ∈ name :: seen ∨ other ∈ successors g.links name ++ pending := by
    intro other hother
    simp only [List.mem_cons, List.mem_append] at hother ⊢
    tauto
  have hname : TransGen g.Linked source name := h.sound name (Or.inr List.mem_cons_self)
  constructor
  · intro other hother
    simp only [List.mem_cons, List.mem_append, mem_successors] at hother
    rcases hother with (rfl | hseen) | (hlink | hpending)
    · exact hname
    · exact h.sound other (Or.inl hseen)
    · exact hname.tail hlink
    · exact h.sound other (Or.inr (List.mem_cons_of_mem name hpending))
  · intro other hlink
    exact hmet other (h.start other hlink)
  · intro a ha b hlink
    rcases List.mem_cons.mp ha with rfl | ha
    · exact Or.inr (List.mem_append_left pending (mem_successors.mpr hlink))
    · exact hmet b (h.closed a ha b hlink)

theorem Searches.skip {source name : String} {seen pending : List String}
    (h : g.Searches source seen (name :: pending)) (hseen : name ∈ seen) :
    g.Searches source seen pending := by
  have hmet : ∀ other, other ∈ seen ∨ other ∈ name :: pending → other ∈ seen ∨ other ∈ pending := by
    rintro other (hother | hother)
    · exact Or.inl hother
    · rcases List.mem_cons.mp hother with rfl | hother
      · exact Or.inl hseen
      · exact Or.inr hother
  constructor
  · rintro other (hother | hother)
    · exact h.sound other (Or.inl hother)
    · exact h.sound other (Or.inr (List.mem_cons_of_mem name hother))
  · intro other hlink
    exact hmet other (h.start other hlink)
  · intro a ha b hlink
    exact hmet b (h.closed a ha b hlink)

theorem Searches.mem_seen_iff {source name : String} {seen : List String}
    (h : g.Searches source seen []) : name ∈ seen ↔ TransGen g.Linked source name := by
  have hseen : ∀ other, other ∈ seen ∨ other ∈ [] → other ∈ seen := by
    rintro other (hother | hother)
    · exact hother
    · cases hother
  constructor
  · intro hname
    exact h.sound name (Or.inl hname)
  · intro hway
    -- A way that has come to a name which was seen goes on to one which was seen.
    induction hway with
    | single hlink =>
        exact hseen _ (h.start _ hlink)
    | tail _ hlink ih =>
        exact hseen _ (h.closed _ ih _ hlink)

theorem Searches.mem_reach_iff {source name : String} {seen pending : List String}
    (h : g.Searches source seen pending) :
    name ∈ reach g.links g.names seen pending ↔ TransGen g.Linked source name := by
  induction seen, pending using reach.induct g.links g.names with
  | case1 seen =>
      rw [reach]
      exact h.mem_seen_iff
  | case2 seen next pending hnew ih =>
      rw [reach, if_pos hnew]
      exact ih h.visit
  | case3 seen next pending hold ih =>
      have hnames : next ∈ g.names :=
        mem_names_of_way (h.sound next (Or.inr List.mem_cons_self))
      have hseen : next ∈ seen := by
        by_contra hnot
        exact hold ⟨hnames, hnot⟩
      rw [reach, if_neg hold]
      exact ih (h.skip hseen)

theorem mem_reachable {source name : String} :
    name ∈ g.reachable source ↔ TransGen g.Linked source name :=
  (searches_start g source).mem_reach_iff

/-!
# Components
-/

/-- The strongly connected components of a graph: each name is in exactly one of them, together with
the names that it can be reached from and that can be reached from it. -/
structure IsComponents (g : NameGraph) (components : List (List String)) : Prop where
  perm : components.flatten.Perm g.names
  mem_iff : ∀ component ∈ components, ∀ a ∈ component, ∀ b,
    b ∈ component ↔ ReflTransGen g.Linked a b ∧ ReflTransGen g.Linked b a

def component (g : NameGraph) (name : String) : List String :=
  g.names.filter fun other =>
    other = name ∨ other ∈ g.reachable name ∧ name ∈ g.reachable other

theorem components_eq (g : NameGraph) : g.components = (g.names.map g.component).eraseDups := by
  simp only [components, List.map_map, List.filter_map, Function.comp_def]
  congr 2
  funext name
  simp [component]

theorem mem_component {name other : String} (hname : name ∈ g.names) :
    other ∈ g.component name ↔
      ReflTransGen g.Linked name other ∧ ReflTransGen g.Linked other name := by
  rw [component, List.mem_filter, decide_eq_true_iff, mem_reachable, mem_reachable,
    reflTransGen_iff_eq_or_transGen, reflTransGen_iff_eq_or_transGen]
  constructor
  · rintro ⟨_, rfl | ⟨hahead, hback⟩⟩
    · exact ⟨Or.inl rfl, Or.inl rfl⟩
    · exact ⟨Or.inr hahead, Or.inr hback⟩
  · rintro ⟨rfl | hahead, hback⟩
    · exact ⟨hname, Or.inl rfl⟩
    · rcases hback with rfl | hback
      · exact ⟨hname, Or.inl rfl⟩
      · exact ⟨mem_names_of_way hahead, Or.inr ⟨hahead, hback⟩⟩

theorem component_eq_of_mem {a b name : String} (ha : a ∈ g.names) (hb : b ∈ g.names)
    (hab : name ∈ g.component a) (hbb : name ∈ g.component b) : g.component a = g.component b := by
  rw [mem_component ha] at hab
  rw [mem_component hb] at hbb
  have hway : ReflTransGen g.Linked a b := hab.1.trans hbb.2
  have hback : ReflTransGen g.Linked b a := hbb.1.trans hab.2
  have hsame : ∀ other, other ∈ g.component a ↔ other ∈ g.component b := by
    intro other
    rw [mem_component ha, mem_component hb]
    constructor
    · rintro ⟨hahead, hbehind⟩
      exact ⟨hback.trans hahead, hbehind.trans hway⟩
    · rintro ⟨hahead, hbehind⟩
      exact ⟨hway.trans hahead, hbehind.trans hback⟩
  apply List.filter_congr
  intro other hother
  have hother' := hsame other
  rw [component, component, List.mem_filter, List.mem_filter] at hother'
  rw [decide_eq_decide]
  simpa [hother] using hother'

theorem mem_components {g : NameGraph} {component : List String} :
    component ∈ g.components ↔ ∃ name ∈ g.names, g.component name = component := by
  rw [components_eq, List.mem_eraseDups, List.mem_map]

theorem nodup_flatten_components (g : NameGraph) : g.components.flatten.Nodup := by
  rw [List.nodup_flatten]
  constructor
  · intro component hcomponent
    obtain ⟨name, _, rfl⟩ := mem_components.mp hcomponent
    exact g.names_nodup.filter _
  · have hnodup : g.components.Nodup := by
      rw [components_eq]
      exact nodup_eraseDups _
    apply hnodup.pairwise_of_forall_ne
    intro component hcomponent component' hcomponent' hne name hname hname'
    obtain ⟨a, ha, rfl⟩ := mem_components.mp hcomponent
    obtain ⟨b, hb, rfl⟩ := mem_components.mp hcomponent'
    exact hne (component_eq_of_mem ha hb hname hname')

theorem isComponents_components (g : NameGraph) : g.IsComponents g.components := by
  constructor
  · rw [List.perm_ext_iff_of_nodup (nodup_flatten_components g) g.names_nodup]
    intro name
    rw [List.mem_flatten]
    constructor
    · rintro ⟨component, hcomponent, hname⟩
      obtain ⟨a, _, rfl⟩ := mem_components.mp hcomponent
      exact List.mem_of_mem_filter hname
    · intro hname
      refine ⟨g.component name, mem_components.mpr ⟨name, hname, rfl⟩, ?_⟩
      rw [mem_component hname]
      exact ⟨ReflTransGen.refl, ReflTransGen.refl⟩
  · intro component hcomponent a ha b
    obtain ⟨name, hname, rfl⟩ := mem_components.mp hcomponent
    have hmem : a ∈ g.names := List.mem_of_mem_filter ha
    have hself : a ∈ g.component a := by
      rw [mem_component hmem]
      exact ⟨ReflTransGen.refl, ReflTransGen.refl⟩
    rw [component_eq_of_mem hname hmem ha hself, mem_component hmem]

/-!
# Names on cycles
-/

theorem IsComponents.nodup {components : List (List String)} (h : g.IsComponents components) :
    components.flatten.Nodup :=
  h.perm.nodup_iff.mpr g.names_nodup

theorem IsComponents.way_of_ne {components : List (List String)} {component : List String}
    {name other : String} (h : g.IsComponents components) (hcomponent : component ∈ components)
    (hname : name ∈ component) (hother : other ∈ component) (hne : other ≠ name) :
    TransGen g.Linked name name := by
  obtain ⟨hahead, hback⟩ := (h.mem_iff component hcomponent name hname other).mp hother
  rcases reflTransGen_iff_eq_or_transGen.mp hahead with heq | hahead
  · exact absurd heq hne
  · exact hahead.trans_left hback

theorem IsComponents.way_of_hasCycle {components : List (List String)} {component : List String}
    {name : String} (h : g.IsComponents components) (hcomponent : component ∈ components)
    (hcycle : g.hasCycle component = true) (hname : name ∈ component) :
    TransGen g.Linked name name := by
  have hnodup : component.Nodup := (List.nodup_flatten.mp h.nodup).1 component hcomponent
  rcases component with _ | ⟨first, _ | ⟨second, rest⟩⟩
  · cases hname
  · have hfirst : name = first := List.mem_singleton.mp hname
    subst hfirst
    have hlink : g.Linked name name := by
      simpa [hasCycle, Linked] using hcycle
    exact TransGen.single hlink
  · have hne : first ≠ second := by
      rintro rfl
      exact (List.nodup_cons.mp hnodup).1 List.mem_cons_self
    by_cases hfirst : first = name
    · have hsecond : second ≠ name := by
        rintro rfl
        exact hne hfirst
      exact h.way_of_ne hcomponent hname (List.mem_cons_of_mem _ List.mem_cons_self) hsecond
    · exact h.way_of_ne hcomponent hname List.mem_cons_self hfirst

/-- A way from a name back to itself stays in the component of the name: it is a link of the name
to itself, or it passes another name of the component. -/
theorem IsComponents.hasCycle_of_way {components : List (List String)} {component : List String}
    {name : String} (h : g.IsComponents components) (hcomponent : component ∈ components)
    (hname : name ∈ component) (hway : TransGen g.Linked name name) :
    g.hasCycle component = true := by
  rcases component with _ | ⟨first, _ | ⟨second, rest⟩⟩
  · cases hname
  · have hfirst : name = first := List.mem_singleton.mp hname
    subst hfirst
    -- What follows the only name of a component leads back to it, and so is this name again.
    obtain ⟨next, hlink, hback⟩ := TransGen.head'_iff.mp hway
    have hnext : next ∈ [name] :=
      (h.mem_iff [name] hcomponent name hname next).mpr ⟨ReflTransGen.single hlink, hback⟩
    rw [List.mem_singleton] at hnext
    subst hnext
    have hself : (next, next) ∈ g.links := hlink
    simp [hasCycle, hself]
  · simp [hasCycle]

theorem IsComponents.mem_cycles_iff {components : List (List String)} {name : String}
    (h : g.IsComponents components) :
    name ∈ (components.filter g.hasCycle).flatten ↔ TransGen g.Linked name name := by
  rw [List.mem_flatten]
  constructor
  · rintro ⟨component, hfilter, hname⟩
    rw [List.mem_filter] at hfilter
    exact h.way_of_hasCycle hfilter.1 hfilter.2 hname
  · intro hway
    have hflatten : name ∈ components.flatten := h.perm.mem_iff.mpr (mem_names_of_way hway)
    obtain ⟨component, hcomponent, hname⟩ := List.mem_flatten.mp hflatten
    refine ⟨component, ?_, hname⟩
    rw [List.mem_filter]
    exact ⟨hcomponent, h.hasCycle_of_way hcomponent hname hway⟩

end NameGraph

/-!
# Recursive names
-/

/-- Some record of the model places the second name in the first, and both are counted. -/
def Nests (m : Model) (parent name : String) : Prop :=
  parent ∈ m.distinctNames ∧ name ∈ m.distinctNames ∧
    ∃ r ∈ m.records, r.parent = some parent ∧ r.name = name

theorem linked_nameGraph (m : Model) : (nameGraph m).Linked = Nests m := by
  funext parent name
  simp only [NameGraph.Linked, nameGraph, Nests, edges, List.mem_eraseDups, List.mem_filter,
    List.mem_filterMap, Option.map_eq_some_iff, Prod.mk.injEq, decide_eq_true_iff, eq_iff_iff]
  constructor
  · rintro ⟨⟨r, hr, other, hparent, rfl, rfl⟩, hends⟩
    exact ⟨hends.1, hends.2, r, hr, hparent, rfl⟩
  · rintro ⟨hparent, hname, r, hr, hplace, rfl⟩
    exact ⟨⟨r, hr, parent, hplace, rfl, rfl⟩, hparent, hname⟩

section RecursiveNames

variable {components : NameGraph → List (List String)}
variable (hcomponents : ∀ g : NameGraph, g.IsComponents (components g))

include hcomponents

theorem mem_recursiveNamesBy {m : Model} {name : String} :
    name ∈ recursiveNamesBy components m ↔ TransGen (Nests m) name name := by
  rw [recursiveNamesBy, List.mem_mergeSort, (hcomponents _).mem_cycles_iff, linked_nameGraph]

theorem sorted_recursiveNamesBy (m : Model) :
    (recursiveNamesBy components m).Pairwise (· < ·) := by
  have hle : (recursiveNamesBy components m).Pairwise fun a b => decide (a ≤ b) = true := by
    apply List.pairwise_mergeSort
    · intro a b c hab hbc
      exact decide_eq_true (String.le_trans (of_decide_eq_true hab) (of_decide_eq_true hbc))
    · intro a b
      simpa using String.le_total a b
  have hnodup : (recursiveNamesBy components m).Nodup := by
    rw [recursiveNamesBy, (List.mergeSort_perm _ _).nodup_iff, List.nodup_flatten]
    have hflatten := List.nodup_flatten.mp (hcomponents (nameGraph m)).nodup
    constructor
    · intro component hcomponent
      exact hflatten.1 component (List.mem_of_mem_filter hcomponent)
    · exact hflatten.2.filter _
  refine (hle.and hnodup).imp ?_
  rintro a b ⟨hab, hne⟩
  by_contra hlt
  exact hne (String.le_antisymm (of_decide_eq_true hab) (String.not_lt.mp hlt))

end RecursiveNames

end Schema
end XmlShape
