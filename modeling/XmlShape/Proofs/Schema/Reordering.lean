import XmlShape.Proofs.Schema.Rearrangement

/-!
# The order of siblings

Two trees differ only in the order of siblings, at any level. Their scans walk the elements in
different orders and count them differently on the way, but in the end they have made the same
records up to order. What is worked out from these records differs in order at most.
-/

namespace XmlShape
namespace Schema

mutual

/-- The same tree, but for the order of the children of any of its elements. -/
inductive Reordered : Element → Element → Prop where
  | intro {name : String} {attributes : List (String × String)} {text : String}
      {children middle children' : List Element} :
      ReorderedAll children middle → middle.Perm children' →
      Reordered ⟨name, attributes, children, text⟩ ⟨name, attributes, children', text⟩

inductive ReorderedAll : List Element → List Element → Prop where
  | nil : ReorderedAll [] []
  | cons {e f : Element} {es fs : List Element} :
      Reordered e f → ReorderedAll es fs → ReorderedAll (e :: es) (f :: fs)

end

theorem ReorderedAll.forall₂ {es fs : List Element} (h : ReorderedAll es fs) :
    List.Forall₂ Reordered es fs := by
  induction es generalizing fs with
  | nil =>
      cases h
      exact List.Forall₂.nil
  | cons e es ih =>
      cases h with
      | cons hfirst hrest =>
          exact List.Forall₂.cons hfirst (ih hrest)

theorem Reordered.children {e f : Element} (h : Reordered e f) :
    Paired Reordered e.children f.children := by
  cases h with
  | intro hall hperm =>
      exact ⟨_, hall.forall₂, hperm⟩

theorem Reordered.name {e f : Element} (h : Reordered e f) : e.name = f.name := by
  cases h
  rfl

theorem Reordered.attributes {e f : Element} (h : Reordered e f) :
    e.attributes = f.attributes := by
  cases h
  rfl

theorem Reordered.typeOf_eq {e f : Element} (h : Reordered e f) (truthValues : Bool) :
    typeOf truthValues e = typeOf truthValues f := by
  have hlength := h.children.length_eq
  have hnil : e.children = [] ↔ f.children = [] := by
    rw [← List.length_eq_zero_iff, ← List.length_eq_zero_iff, hlength]
  have htext : e.text = f.text := by
    cases h
    rfl
  unfold typeOf
  rw [htext]
  simp only [hnil]

/-!
# Places
-/

structure SamePlace (v w : Visit) : Prop where
  element : Reordered v.element w.element
  ancestors : v.ancestors = w.ancestors

theorem visitsAll_perm (ancestors : List String) {es fs : List Element} (h : es.Perm fs) :
    (visitsAll ancestors es).Perm (visitsAll ancestors fs) := by
  have hflatMap : ∀ gs, visitsAll ancestors gs = gs.flatMap (visits ancestors) := by
    intro gs
    induction gs with
    | nil =>
        rfl
    | cons g gs ih =>
        rw [visitsAll, List.flatMap_cons, ih]
  rw [hflatMap, hflatMap]
  exact h.flatMap_right _

mutual

theorem Reordered.visits : {e f : Element} → Reordered e f → ∀ ancestors : List String,
    Paired SamePlace (visits ancestors e) (visits ancestors f)
  | ⟨name, attributes, children, text⟩, ⟨_, _, children', _⟩, .intro hall hperm, ancestors => by
      rw [Schema.visits, Schema.visits]
      apply Paired.append
      · exact (hall.visits (name :: ancestors)).perm_right (visitsAll_perm (name :: ancestors) hperm)
      · apply Paired.of_forall₂
        exact List.Forall₂.cons ⟨.intro hall hperm, rfl⟩ List.Forall₂.nil

theorem ReorderedAll.visits : {es fs : List Element} → ReorderedAll es fs →
    ∀ ancestors : List String, Paired SamePlace (visitsAll ancestors es) (visitsAll ancestors fs)
  | [], [], .nil, ancestors => Paired.of_forall₂ List.Forall₂.nil
  | e :: es, f :: fs, .cons hfirst hrest, ancestors => by
      rw [visitsAll, visitsAll]
      exact (hfirst.visits ancestors).append (hrest.visits ancestors)

end

/-!
# Scans
-/

theorem SamePlace.sameUpToOrder {truthValues : Bool} {v w : Visit} {r r' : Record}
    (h : SamePlace v w) (hr : Describes truthValues v r) (hr' : Describes truthValues w r') :
    SameUpToOrder r r' := by
  constructor
  · rw [hr.name, hr'.name, h.element.name]
  · rw [hr.type, hr'.type, h.element.typeOf_eq]
  · rw [hr.parent, hr'.parent, Visit.parent, Visit.parent, h.ancestors]
  · rw [hr.depth, hr'.depth, Visit.level, Visit.level, h.ancestors]
  · apply NameMap.ext_get?
    intro key
    rw [hr.attributes, hr'.attributes, h.element.attributes]
  · rw [hr.children, hr'.children]
    apply h.element.children.map_perm
    intro child child' hchild
    rw [hchild.name, hchild.typeOf_eq, h.element.name]

theorem Reordered.names_perm {e f : Element} (h : Reordered e f) :
    (names e).Perm (names f) := by
  unfold names elements
  rw [List.map_map, List.map_map]
  exact (h.visits []).map_perm fun _ _ hplace => hplace.element.name

theorem Reordered.rearranged_scan {e f : Element} (h : Reordered e f) (options : ScanOptions) :
    Rearranged (scan options e) (scan options f) := by
  constructor
  · have hcount : (names e).count = (names f).count := by
      funext name
      exact h.names_perm.count_eq name
    have htallies := tallies_tally (names e)
    rw [hcount] at htallies
    rw [frequency_scan, frequency_scan]
    exact htallies.eq (tallies_tally (names f))
  · exact (h.visits []).transfer (describes_scan options e) (describes_scan options f)
      fun _ _ _ _ hplace hr hr' => hplace.sameUpToOrder hr hr'

/-- Two models agree in all that does not depend on the order of siblings. The relations of repeated
children are listed with their parents, and so these agree up to order. -/
structure AgreeUpToOrder (components : NameGraph → List (List String)) (m m' : Model) : Prop where
  frequency : m.frequency = m'.frequency
  patternNames : m.patterns.map (·.name) = m'.patterns.map (·.name)
  manyToMany : detectManyToMany m = detectManyToMany m'
  recursive : recursiveNamesBy components m = recursiveNamesBy components m'
  oneToMany : (detectOneToMany m).Perm (detectOneToMany m')
  fields : resolveAll m .noContainers = resolveAll m' .noContainers
  stats : statsOf m (detectRelations m) = statsOf m' (detectRelations m')

/-- The models of trees that differ only in the order of siblings agree up to order, however the
strongly connected components of a graph are found. -/
theorem scan_reordered (components : NameGraph → List (List String))
    (hcomponents : ∀ g : NameGraph, g.IsComponents (components g)) (config : Config)
    {e f : Element} (h : Reordered e f) :
    AgreeUpToOrder components (scan config.scanning e) (scan config.scanning f) := by
  have hmodels : Rearranged (scan config.scanning e) (scan config.scanning f) :=
    h.rearranged_scan config.scanning
  exact {
    frequency := hmodels.frequency
    patternNames := hmodels.map_name_patterns
    manyToMany := hmodels.detectManyToMany_eq
    recursive := hmodels.recursiveNamesBy_eq hcomponents
    oneToMany := hmodels.detectOneToMany_perm
    fields := hmodels.resolveAll_noContainers_eq
    stats := hmodels.statsOf_eq }

def playlist : Element :=
  ⟨"playlist", [("owner", "me")],
    [⟨"track", [], [⟨"title", [], [], "One"⟩, ⟨"length", [], [], "3"⟩], ""⟩, ⟨"note", [], [], ""⟩,
      ⟨"track", [], [⟨"title", [], [], "Two"⟩, ⟨"title", [], [], "2"⟩], ""⟩], ""⟩

def turnedPlaylist : Element :=
  ⟨"playlist", [("owner", "me")],
    [⟨"track", [], [⟨"title", [], [], "Two"⟩, ⟨"title", [], [], "2"⟩], ""⟩, ⟨"note", [], [], ""⟩,
      ⟨"track", [], [⟨"length", [], [], "3"⟩, ⟨"title", [], [], "One"⟩], ""⟩], ""⟩

theorem scan_reordered_playlist :
    (∀ g : NameGraph, g.IsComponents g.components) ∧ Reordered playlist turnedPlaylist ∧
      AgreeUpToOrder NameGraph.components (scan ({} : Config).scanning playlist)
        (scan ({} : Config).scanning turnedPlaylist) := by
  have hleaf : ∀ name text, Reordered ⟨name, [], [], text⟩ ⟨name, [], [], text⟩ := by
    intro name text
    exact .intro .nil (List.Perm.refl _)
  have hpair : ∀ e f, Reordered e e → Reordered f f → ReorderedAll [e, f] [e, f] := by
    intro e f he hf
    exact .cons he (.cons hf .nil)
  have hturned : Reordered playlist turnedPlaylist := by
    refine .intro (.cons (.intro (hpair _ _ (hleaf _ _) (hleaf _ _)) (List.Perm.swap _ _ _))
      (.cons (hleaf _ _) (.cons (.intro (hpair _ _ (hleaf _ _) (hleaf _ _)) (List.Perm.refl _))
        .nil))) ?_
    exact (List.reverse_perm _).symm
  exact ⟨NameGraph.isComponents_components, hturned,
    scan_reordered NameGraph.components NameGraph.isComponents_components {} hturned⟩

end Schema
end XmlShape
