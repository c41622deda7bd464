import XmlShape.Proofs.Schema.Hierarchy
import XmlShape.Proofs.Schema.Recursion

/-!
# The way up in a tree

In a scanned tree every name but that of the root has a parent, so a walk up ends at the root or
comes back to a name, and this name is recursive. The chain of first records need not be a path of
the tree, but where each name lies at one level only it goes up by one level at a time, and the walk
is as long as the path would be.
-/

open Relation

namespace XmlShape
namespace Schema

variable {options : ScanOptions} {root : Element}

/-!
# Parents in a tree
-/

theorem name_of_no_parent {r : Record} (hr : r ∈ (scan options root).records)
    (h : r.parent = none) : r.name = root.name := by
  have horphan : ∃ r' ∈ (scan options root).records, r'.parent = none ∧ r'.name = r.name :=
    ⟨r, hr, h, rfl⟩
  rw [exists_record_iff (q := fun v => v.parent = none ∧ v.element.name = r.name)
    (fun v r' h => by rw [h.parent, h.name]) (describes_scan options root)] at horphan
  rcases horphan with ⟨v, hv, hnone, hname⟩
  rcases visits_root root with ⟨below, hvisits, hbelow⟩
  rw [hvisits, List.mem_append, List.mem_singleton] at hv
  have hroot : v = ⟨root, []⟩ := hv.resolve_left fun hmem => hbelow v hmem hnone
  rw [← hname, hroot]

theorem contains_of_parentOf? {name parent : String}
    (h : (scan options root).parentOf? name = some parent) : Contains root parent name := by
  rcases Option.bind_eq_some_iff.mp h with ⟨r, hfirst, hparent⟩
  rcases of_firstRecord?_eq_some hfirst with ⟨hr, hname⟩
  exact exists_record_scan.mp ⟨r, hr, hparent, hname⟩

theorem exists_parentOf? (options : ScanOptions) {name : String} (hname : name ∈ names root)
    (hne : name ≠ root.name) : ∃ parent, (scan options root).parentOf? name = some parent := by
  have hrecord : ∃ r ∈ (scan options root).records, r.name = name :=
    exists_record_named_scan.mpr hname
  rcases hrecord with ⟨r, hr, rfl⟩
  rcases exists_firstRecord?_of_mem hr with ⟨first, hfirst⟩
  rcases of_firstRecord?_eq_some hfirst with ⟨hmem, hsame⟩
  have hparent : first.parent ≠ none := by
    intro hnone
    exact hne (hsame.symm.trans (name_of_no_parent hmem hnone))
  rcases Option.ne_none_iff_exists'.mp hparent with ⟨parent, hparent⟩
  exact ⟨parent, Option.bind_eq_some_iff.mpr ⟨first, hfirst, hparent⟩⟩

theorem Climbs.subset_names {names' : List String} {next? : Option String}
    (h : Climbs (scan options root) next? names')
    (hnext : ∀ next, next? = some next → next ∈ names root) : names' ⊆ names root := by
  induction names' generalizing next? with
  | nil =>
      exact List.nil_subset _
  | cons name names' ih =>
      apply List.cons_subset.mpr
      constructor
      · exact hnext name h.1
      · apply ih h.2
        intro parent hparent
        exact (contains_of_parentOf? hparent).mem_names.1

theorem Walk.subset_names {names' : List String} {start : String}
    (h : Walk (scan options root) start names') (hstart : start ∈ names root) :
    names' ⊆ names root := by
  apply h.climbs.subset_names
  intro next hnext
  rw [← Option.some_inj.mp hnext]
  exact hstart

theorem Climbs.way {names' : List String} {stop : String} {next? : Option String}
    (h : Climbs (scan options root) next? (names' ++ [stop])) :
    ∀ name ∈ names', TransGen (Contains root) stop name := by
  induction names' generalizing next? with
  | nil =>
      intro name hname
      cases hname
  | cons first names' ih =>
      have hrest := ih h.2
      intro name hname
      rcases List.mem_cons.mp hname with rfl | hname
      · cases names' with
        | nil =>
            exact TransGen.single (contains_of_parentOf? h.2.1)
        | cons parent names' =>
            exact (hrest parent List.mem_cons_self).tail (contains_of_parentOf? h.2.1)
      · exact hrest name hname

/-!
# Where a walk ends
-/

/-- A walk up from a name in a tree goes on to a name which is the root or has been passed. -/
theorem exists_stop (options : ScanOptions) {start : String} (hstart : start ∈ names root) :
    ∃ passed stop, Walk (scan options root) start passed ∧
      passed.length = parentDepth (scan options root) start ∧
      Climbs (scan options root) (some start) (passed ++ [stop]) ∧
      (stop = root.name ∨ stop ∈ passed) := by
  rcases exists_walk (scan options root) start with ⟨passed, hwalk, hlength, hstops⟩
  have hnext : ∃ stop, Climbs (scan options root) (some start) (passed ++ [stop]) := by
    rcases List.eq_nil_or_concat passed with rfl | ⟨before, last, rfl⟩
    · exact ⟨start, rfl, trivial⟩
    · rw [List.concat_eq_append] at hwalk ⊢
      have hmem : last ∈ before ++ [last] := List.mem_append_right _ List.mem_cons_self
      have hne : last ≠ root.name := by
        rintro rfl
        exact hwalk.root_not_mem hmem
      rcases exists_parentOf? options (hwalk.subset_names hstart hmem) hne with
        ⟨parent, hparent⟩
      exact ⟨parent, hwalk.climbs.concat hparent⟩
  rcases hnext with ⟨stop, hclimbs⟩
  exact ⟨passed, stop, hwalk, hlength, hclimbs, hstops stop hclimbs⟩

/-!
# Levels
-/

def LevelsAgree (root : Element) : Prop :=
  ∀ u ∈ visits [] root, ∀ v ∈ visits [] root, u.element.name = v.element.name → u.level = v.level

def LiesAt (root : Element) (name : String) (level : Nat) : Prop :=
  ∃ v ∈ visits [] root, v.element.name = name ∧ v.level = level

theorem LevelsAgree.level_unique (h : LevelsAgree root) {name : String} {level level' : Nat}
    (hlevel : LiesAt root name level) (hlevel' : LiesAt root name level') : level = level' := by
  rcases hlevel with ⟨u, hu, hname, rfl⟩
  rcases hlevel' with ⟨v, hv, hname', rfl⟩
  exact h u hu v hv (hname.trans hname'.symm)

theorem liesAt_parent {v : Visit} {parent : String} (hv : v ∈ visits [] root)
    (hparent : v.parent = some parent) :
    ∃ level, LiesAt root parent level ∧ v.level = level + 1 := by
  rcases parent_mem_visits [] root v hv with rfl | ⟨u, hu, _, hancestors⟩
  · cases hparent
  · rw [Visit.parent, hancestors, Visit.path, List.head?_cons, Option.some_inj] at hparent
    refine ⟨u.level, ⟨u, hu, hparent, rfl⟩, ?_⟩
    rw [Visit.level, hancestors]
    rfl

theorem liesAt_parent_of_record {r : Record} {parent : String}
    (hr : r ∈ (scan options root).records) (hparent : r.parent = some parent) :
    ∃ level, LiesAt root parent level ∧ r.depth = level + 1 := by
  have hplace : ∃ r' ∈ (scan options root).records,
      r'.parent = some parent ∧ r'.depth = r.depth := ⟨r, hr, hparent, rfl⟩
  rw [exists_record_iff (q := fun v => v.parent = some parent ∧ v.level = r.depth)
    (fun v r h => by rw [h.parent, h.depth]) (describes_scan options root)] at hplace
  rcases hplace with ⟨v, hv, hparent, hlevel⟩
  rw [← hlevel]
  exact liesAt_parent hv hparent

theorem LevelsAgree.exists_above (h : LevelsAgree root) {parent name : String} {level : Nat}
    (hcontains : Contains root parent name) (hlevel : LiesAt root name level) :
    ∃ above, level = above + 1 ∧ LiesAt root parent above := by
  rcases exists_visit_iff_contains.mpr hcontains with ⟨v, hv, hparent, hname⟩
  rcases liesAt_parent hv hparent with ⟨above, habove, hv'⟩
  have hlevel' : LiesAt root name (above + 1) := ⟨v, hv, hname, hv'⟩
  exact ⟨above, h.level_unique hlevel hlevel', habove⟩

theorem LevelsAgree.exists_lt_of_way (h : LevelsAgree root) {name other : String} {level : Nat}
    (hway : TransGen (Contains root) name other) (hlevel : LiesAt root other level) :
    ∃ above < level, LiesAt root name above := by
  induction hway generalizing level with
  | single hcontains =>
      rcases h.exists_above hcontains hlevel with ⟨above, rfl, habove⟩
      exact ⟨above, Nat.lt_succ_self above, habove⟩
  | tail _ hcontains ih =>
      rcases h.exists_above hcontains hlevel with ⟨between, rfl, hbetween⟩
      rcases ih hbetween with ⟨above, hlt, habove⟩
      exact ⟨above, Nat.lt_succ_of_lt hlt, habove⟩

theorem LevelsAgree.not_way_self (h : LevelsAgree root) {name : String}
    (hname : name ∈ names root) : ¬ TransGen (Contains root) name name := by
  intro hway
  rcases List.mem_map.mp hname with ⟨e, he, hname⟩
  rcases mem_elements.mp he with ⟨v, hv, rfl⟩
  have hlevel : LiesAt root name v.level := ⟨v, hv, hname, rfl⟩
  rcases h.exists_lt_of_way hway hlevel with ⟨above, hlt, habove⟩
  exact Nat.ne_of_lt hlt (h.level_unique habove hlevel)

theorem LevelsAgree.length_climb (h : LevelsAgree root) {start stop : String}
    {passed : List String} {level : Nat}
    (hclimbs : Climbs (scan options root) (some start) (passed ++ [stop]))
    (hlevel : LiesAt root start level) :
    ∃ above, level = above + passed.length ∧ LiesAt root stop above := by
  induction passed generalizing start level with
  | nil =>
      have hstop : start = stop := Option.some_inj.mp hclimbs.1
      exact ⟨level, rfl, hstop ▸ hlevel⟩
  | cons name passed ih =>
      have hname : start = name := Option.some_inj.mp hclimbs.1
      subst hname
      rcases hclimbs.2.exists_next with ⟨parent, hparent⟩
      rcases h.exists_above (contains_of_parentOf? hparent) hlevel with ⟨between, rfl, hbetween⟩
      have hrest := hclimbs.2
      rw [hparent] at hrest
      rcases ih hrest hbetween with ⟨above, rfl, habove⟩
      exact ⟨above, rfl, habove⟩

theorem liesAt_root : LiesAt root root.name 0 :=
  ⟨⟨root, []⟩, root_mem_visits [] root, rfl, rfl⟩

theorem LevelsAgree.parentDepth_eq (h : LevelsAgree root) (options : ScanOptions) {name : String}
    {level : Nat} (hlevel : LiesAt root name level) :
    parentDepth (scan options root) name = level := by
  have hname : name ∈ names root := by
    rcases hlevel with ⟨v, hv, rfl, _⟩
    exact name_mem_names hv
  rcases exists_stop options hname with ⟨passed, stop, hwalk, hlength, hclimbs, hstop⟩
  have hroot : stop = root.name := by
    apply hstop.resolve_right
    intro hmem
    exact h.not_way_self (hwalk.subset_names hname hmem) (hclimbs.way stop hmem)
  rcases h.length_climb hclimbs hlevel with ⟨above, rfl, habove⟩
  rw [hroot] at habove
  rw [h.level_unique habove liesAt_root, Nat.zero_add, hlength]

/-!
# Relations of a tree
-/

section Components

variable {components : NameGraph → List (List String)}

/-- The walk of every relation in a tree comes to the root, or to a recursive name that it has
passed. Where elements of the same name lie at the same level, the depth of each relation is one
less than that of the record it places. -/
theorem detectParentChild_scan_ascends
    (hcomponents : ∀ g : NameGraph, g.IsComponents (components g)) (config : Config)
    (root : Element) :
    (∀ relation ∈ detectParentChild (scan config.scanning root), ∃ passed stop,
      Walk (scan config.scanning root) relation.parent passed ∧ passed.length = relation.depth ∧
      Climbs (scan config.scanning root) (some relation.parent) (passed ++ [stop]) ∧
      (stop = root.name ∨
        stop ∈ passed ∧ stop ∈ recursiveNamesBy components (scan config.scanning root))) ∧
    (LevelsAgree root →
      List.Forall₂ (fun r relation => relation.depth + 1 = r.depth)
        ((scan config.scanning root).records.filter (·.parent.isSome))
        (detectParentChild (scan config.scanning root))) := by
  constructor
  · intro relation hrelation
    rcases mem_detectParentChild.mp hrelation with ⟨r, hr, parent, hparent, rfl⟩
    have hcontains : Contains root parent r.name := exists_record_scan.mp ⟨r, hr, hparent, rfl⟩
    rcases exists_stop config.scanning hcontains.mem_names.1 with
      ⟨passed, stop, hwalk, hlength, hclimbs, hstop⟩
    refine ⟨passed, stop, hwalk, hlength, hclimbs, hstop.imp_right ?_⟩
    intro hmem
    refine ⟨hmem, ?_⟩
    rw [mem_recursiveNamesBy hcomponents, nests_scan]
    exact hclimbs.way stop hmem
  · intro hlevels
    apply forall₂_detectParentChild
    intro r hr parent hparent
    rcases liesAt_parent_of_record hr hparent with ⟨level, hlevel, hdepth⟩
    rw [hlevels.parentDepth_eq config.scanning hlevel, hdepth]

def foldedTree : Element :=
  ⟨"doc", [], [⟨"list", [], [⟨"item", [], [⟨"list", [], [], ""⟩], ""⟩], ""⟩], ""⟩

theorem detectParentChild_foldedTree :
    (∀ g : NameGraph, g.IsComponents g.components) ∧
      ⟨"item", "list", 2, true⟩ ∈ detectParentChild (scan ({} : Config).scanning foldedTree) ∧
      (∃ passed stop, Walk (scan ({} : Config).scanning foldedTree) "item" passed ∧
        passed.length = 2 ∧
        Climbs (scan ({} : Config).scanning foldedTree) (some "item") (passed ++ [stop]) ∧
        (stop = "doc" ∨ stop ∈ passed ∧
          stop ∈ recursiveNames (scan ({} : Config).scanning foldedTree))) ∧
      LevelsAgree flatTree ∧
      List.Forall₂ (fun r relation => relation.depth + 1 = r.depth)
        ((scan ({} : Config).scanning flatTree).records.filter (·.parent.isSome))
        (detectParentChild (scan ({} : Config).scanning flatTree)) := by
  have hcomponents := NameGraph.isComponents_components
  have hitem : (firstParents (scan ({} : Config).scanning foldedTree).records).get? "item" =
      some (some "list") := rfl
  have hlist : (firstParents (scan ({} : Config).scanning foldedTree).records).get? "list" =
      some (some "item") := rfl
  have hdepth : parentDepth (scan ({} : Config).scanning foldedTree) "item" = 2 := by
    rw [parentDepth, show (scan ({} : Config).scanning foldedTree).root = "doc" from rfl,
      hops_of_parent (by decide) hitem, hops_of_parent (by decide) hlist,
      hops_of_stop (by decide)]
  have hmem : ⟨"item", "list", 2, true⟩ ∈
      detectParentChild (scan ({} : Config).scanning foldedTree) := by
    rw [mem_detectParentChild]
    refine ⟨_, List.mem_cons_self, "item", rfl, ?_⟩
    rw [hdepth]
    rfl
  have hlevels : LevelsAgree flatTree := by
    simp [LevelsAgree, flatTree, visits, visitsAll, Visit.level]
  exact ⟨hcomponents, hmem,
    (detectParentChild_scan_ascends hcomponents {} foldedTree).1 _ hmem, hlevels,
    (detectParentChild_scan_ascends hcomponents {} flatTree).2 hlevels⟩

end Components

end Schema
end XmlShape
