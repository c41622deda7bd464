import Mathlib.Data.Finset.Card
import Mathlib.Order.Bounds.Basic
import XmlShape.Proofs.Schema.Relations

/-!
# The way up from a name

The depth of a relation is found on a walk that goes from each name to the parent of its first
record. The names that follow each other in this way are a chain, which may come back to a name or
break off in a model that was put together by hand. The walk takes as much of it as there is without
the root and without a repetition.
-/

namespace XmlShape
namespace Schema

/-!
# Chains of parents
-/

def Model.parentOf? (m : Model) (name : String) : Option String :=
  (m.firstRecord? name).bind (·.parent)

/-- The names follow each other on the way up, of which `next?` is the first. -/
def Climbs (m : Model) : Option String → List String → Prop
  | _, [] => True
  | next?, name :: names => next? = some name ∧ Climbs m (m.parentOf? name) names

/-- The names passed on the way up from `start`, none of them twice and the root not among them. -/
structure Walk (m : Model) (start : String) (names : List String) : Prop where
  climbs : Climbs m (some start) names
  nodup : names.Nodup
  root_not_mem : m.root ∉ names

variable {m : Model}

theorem Climbs.left {names names' : List String} {next? : Option String}
    (h : Climbs m next? (names ++ names')) : Climbs m next? names := by
  induction names generalizing next? with
  | nil =>
      trivial
  | cons name names ih =>
      exact ⟨h.1, ih h.2⟩

theorem Climbs.exists_next {names : List String} {stop : String} {next? : Option String}
    (h : Climbs m next? (names ++ [stop])) : ∃ next, next? = some next := by
  cases names with
  | nil =>
      exact ⟨stop, h.1⟩
  | cons name names =>
      exact ⟨name, h.1⟩

theorem Climbs.concat {names : List String} {name parent : String} {next? : Option String}
    (h : Climbs m next? (names ++ [name])) (hparent : m.parentOf? name = some parent) :
    Climbs m next? (names ++ [name] ++ [parent]) := by
  induction names generalizing next? with
  | nil =>
      exact ⟨h.1, hparent, trivial⟩
  | cons first names ih =>
      exact ⟨h.1, ih h.2⟩

/-- There is only one way up: of two chains with the same beginning, the longer one continues the
other. -/
theorem Climbs.prefix_of_length_le {names names' : List String} {next? : Option String}
    (h : Climbs m next? names) (h' : Climbs m next? names') (hle : names.length ≤ names'.length) :
    names <+: names' := by
  induction names generalizing names' next? with
  | nil =>
      exact List.nil_prefix
  | cons name names ih =>
      cases names' with
      | nil =>
          cases hle
      | cons name' names' =>
          have hname : name = name' := Option.some_inj.mp (h.1.symm.trans h'.1)
          subst hname
          rw [List.cons_prefix_cons]
          exact ⟨rfl, ih h.2 h'.2 (Nat.le_of_succ_le_succ hle)⟩

theorem Climbs.dropLast_subset {names : List String} {next? : Option String}
    (h : Climbs m next? names) : names.dropLast ⊆ m.records.map (·.name) := by
  induction names generalizing next? with
  | nil =>
      exact List.nil_subset _
  | cons name names ih =>
      cases names with
      | nil =>
          exact List.nil_subset _
      | cons parent names =>
          rcases Option.bind_eq_some_iff.mp h.2.1 with ⟨r, hfirst, _⟩
          rcases of_firstRecord?_eq_some hfirst with ⟨hmem, hname⟩
          have hrecord : name ∈ m.records.map (·.name) := by
            rw [← hname]
            exact List.mem_map_of_mem hmem
          rw [List.dropLast_cons_cons, List.cons_subset]
          exact ⟨hrecord, ih h.2⟩

theorem Walk.length_le {start : String} {names : List String} (h : Walk m start names) :
    names.length ≤ (m.records.map (·.name)).toFinset.card + 1 := by
  have hnodup : names.dropLast.Nodup := h.nodup.sublist (List.dropLast_sublist names)
  have hsubset : names.dropLast.toFinset ⊆ (m.records.map (·.name)).toFinset := by
    intro name hname
    rw [List.mem_toFinset] at hname ⊢
    exact h.climbs.dropLast_subset hname
  have hcard := Finset.card_le_card hsubset
  rw [List.toFinset_card_of_nodup hnodup, List.length_dropLast] at hcard
  exact Nat.le_add_of_sub_le hcard

theorem Walk.nil (m : Model) (start : String) : Walk m start [] :=
  ⟨trivial, List.nodup_nil, List.not_mem_nil⟩

theorem Walk.singleton {name : String} (h : name ≠ m.root) : Walk m name [name] := by
  refine ⟨⟨rfl, trivial⟩, List.nodup_singleton name, ?_⟩
  rw [List.mem_singleton]
  exact h.symm

theorem Walk.cons {name parent : String} {names : List String} (h : Walk m parent names)
    (hparent : m.parentOf? name = some parent) (hroot : name ≠ m.root) (hnew : name ∉ names) :
    Walk m name (name :: names) := by
  refine ⟨⟨rfl, ?_⟩, List.nodup_cons.mpr ⟨hnew, h.nodup⟩, ?_⟩
  · rw [hparent]
    exact h.climbs
  · exact List.not_mem_cons_of_ne_of_not_mem hroot.symm h.root_not_mem

/-!
# Walking
-/

def HoldsFirst (records : List Record) (found : NameMap (Option String)) : Prop :=
  ∀ name, found.get? name = (records.find? (·.name = name)).map (·.parent)

theorem HoldsFirst.add {records : List Record} {found : NameMap (Option String)}
    (h : HoldsFirst records found) (r : Record) :
    HoldsFirst (records ++ [r]) (found.update r.name fun parent? => parent?.getD r.parent) := by
  intro name
  rw [NameMap.get?_update, h r.name, h name, List.find?_append]
  by_cases hname : name = r.name
  · subst hname
    cases records.find? (·.name = r.name) <;> simp
  · simp [hname, Ne.symm hname]

theorem get?_firstParents (records : List Record) (name : String) :
    (firstParents records).get? name = (records.find? (·.name = name)).map (·.parent) := by
  have hempty : HoldsFirst [] .empty := by
    intro name
    rfl
  exact foldl_invariant (motive := HoldsFirst) HoldsFirst.add records hempty name

theorem parentOf?_eq_some {name parent : String} :
    m.parentOf? name = some parent ↔ (firstParents m.records).get? name = some (some parent) := by
  rw [get?_firstParents, Model.parentOf?, Model.firstRecord?, Option.bind_eq_some_iff,
    Option.map_eq_some_iff]

section Hops

variable {root name : String} {parents : NameMap (Option String)} {seen : List String}

theorem hops_of_stop (h : name = root ∨ name ∈ seen) : hops root parents seen name = 0 := by
  rw [hops, if_pos h]

theorem hops_of_parent {parent : String} (h : ¬(name = root ∨ name ∈ seen))
    (hparent : parents.get? name = some (some parent)) :
    hops root parents seen name = hops root parents (name :: seen) parent + 1 := by
  rw [hops, if_neg h]
  split
  · next parent' hparent' =>
      rw [hparent, Option.some_inj, Option.some_inj] at hparent'
      rw [hparent']
  · next hnone => exact absurd hparent (hnone parent)

theorem hops_of_no_parent (h : ¬(name = root ∨ name ∈ seen))
    (hnone : ∀ parent, parents.get? name ≠ some (some parent)) :
    hops root parents seen name = 1 := by
  rw [hops, if_neg h]
  split
  · next parent hparent => exact absurd hparent (hnone parent)
  · rfl

end Hops

/-- The names that are counted are a walk, and whatever comes next on the way up is the root or has
been met. -/
theorem exists_walk_hops (m : Model) (seen : List String) (start : String) :
    ∃ names, Walk m start names ∧ List.Disjoint names seen ∧
      names.length = hops m.root (firstParents m.records) seen start ∧
      ∀ next, Climbs m (some start) (names ++ [next]) →
        next = m.root ∨ next ∈ seen ∨ next ∈ names := by
  induction seen, start using hops.induct m.root (firstParents m.records) with
  | case1 seen name hstop =>
      refine ⟨[], Walk.nil m name, List.disjoint_nil_left seen, (hops_of_stop hstop).symm, ?_⟩
      intro next hclimbs
      rw [← Option.some_inj.mp hclimbs.1]
      exact hstop.imp_right Or.inl
  | case2 seen name hnew parent hparent ih =>
      rcases not_or.mp hnew with ⟨hroot, hseen⟩
      rcases ih with ⟨names, hwalk, hdisjoint, hlength, hnext⟩
      rw [List.disjoint_cons_right] at hdisjoint
      have hup : m.parentOf? name = some parent := parentOf?_eq_some.mpr hparent
      refine ⟨name :: names, hwalk.cons hup hroot hdisjoint.1,
        List.disjoint_cons_left.mpr ⟨hseen, hdisjoint.2⟩, ?_, ?_⟩
      · rw [List.length_cons, hlength, hops_of_parent hnew hparent]
      · intro next hclimbs
        have hrest := hclimbs.2
        rw [hup] at hrest
        have hmet := hnext next hrest
        simp only [List.mem_cons] at hmet ⊢
        tauto
  | case3 seen name hnew hend =>
      rcases not_or.mp hnew with ⟨hroot, hseen⟩
      refine ⟨[name], Walk.singleton hroot, ?_, (hops_of_no_parent hnew hend).symm, ?_⟩
      · rw [List.singleton_disjoint]
        exact hseen
      · intro next hclimbs
        exact absurd (parentOf?_eq_some.mp hclimbs.2.1) (hend next)

theorem exists_walk (m : Model) (start : String) :
    ∃ names, Walk m start names ∧ names.length = parentDepth m start ∧
      ∀ next, Climbs m (some start) (names ++ [next]) → next = m.root ∨ next ∈ names := by
  rcases exists_walk_hops m [] start with ⟨names, hwalk, _, hlength, hnext⟩
  refine ⟨names, hwalk, hlength, ?_⟩
  intro next hclimbs
  exact (hnext next hclimbs).imp_right fun hmet => hmet.resolve_left List.not_mem_nil

theorem Walk.length_le_of_stops {start : String} {names names' : List String}
    (h' : Walk m start names') (h : Walk m start names)
    (hstops : ∀ next, Climbs m (some start) (names ++ [next]) → next = m.root ∨ next ∈ names) :
    names'.length ≤ names.length := by
  by_contra hlt
  rcases h.climbs.prefix_of_length_le h'.climbs (Nat.le_of_not_le hlt) with ⟨rest, rfl⟩
  cases rest with
  | nil =>
      simp at hlt
  | cons next rest =>
      rw [List.append_cons] at h'
      have hnodup := (List.nodup_append.mp h'.nodup).1
      rcases hstops next h'.climbs.left with rfl | hmem
      · exact h'.root_not_mem (by simp)
      · exact (List.nodup_append.mp hnodup).2.2 next hmem next List.mem_cons_self rfl

theorem isGreatest_parentDepth (m : Model) (start : String) :
    IsGreatest {n | ∃ names, Walk m start names ∧ names.length = n} (parentDepth m start) := by
  rcases exists_walk m start with ⟨names, hwalk, hlength, hstops⟩
  constructor
  · exact ⟨names, hwalk, hlength⟩
  · rintro n ⟨names', hwalk', rfl⟩
    rw [← hlength]
    exact hwalk'.length_le_of_stops hwalk hstops

theorem parentDepth_eq_zero {start : String} : parentDepth m start = 0 ↔ start = m.root := by
  rw [parentDepth, hops]
  constructor
  · intro hzero
    by_contra hne
    rw [if_neg (by simpa using hne)] at hzero
    split at hzero <;> cases hzero
  · intro hroot
    rw [if_pos (Or.inl hroot)]

/-!
# Relations
-/

/-- A relation tells where a record belongs: below which parent, and how far that is from the
root. -/
structure Places (m : Model) (r : Record) (relation : ParentChild) : Prop where
  parent : r.parent = some relation.parent
  child : r.name = relation.child
  direct : relation.direct = true
  /-- The longest walk up from the parent has this length. -/
  depth : IsGreatest {n | ∃ names, Walk m relation.parent names ∧ names.length = n} relation.depth
  depth_eq_zero : relation.depth = 0 ↔ relation.parent = m.root
  depth_le : relation.depth ≤ (m.records.map (·.name)).toFinset.card + 1

theorem mem_detectParentChild {relation : ParentChild} :
    relation ∈ detectParentChild m ↔ ∃ r ∈ m.records, ∃ parent, r.parent = some parent ∧
      ⟨parent, r.name, parentDepth m parent, true⟩ = relation := by
  simp only [detectParentChild, List.mem_filterMap, Option.map_eq_some_iff]

theorem places_relation {r : Record} {parent : String} (h : r.parent = some parent) :
    Places m r ⟨parent, r.name, parentDepth m parent, true⟩ := by
  have hdepth := isGreatest_parentDepth m parent
  constructor
  · exact h
  · rfl
  · rfl
  · exact hdepth
  · exact parentDepth_eq_zero
  · rcases hdepth.1 with ⟨names, hwalk, hlength⟩
    rw [← hlength]
    exact hwalk.length_le

theorem forall₂_detectParentChild {agree : Record → ParentChild → Prop}
    (h : ∀ r ∈ m.records, ∀ parent, r.parent = some parent →
      agree r ⟨parent, r.name, parentDepth m parent, true⟩) :
    List.Forall₂ agree (m.records.filter (·.parent.isSome)) (detectParentChild m) := by
  rw [detectParentChild]
  generalize m.records = records at h ⊢
  induction records with
  | nil =>
      exact List.Forall₂.nil
  | cons r records ih =>
      have hrest := ih fun r' hr' => h r' (List.mem_cons_of_mem r hr')
      cases hparent : r.parent with
      | none =>
          simpa [hparent] using hrest
      | some parent =>
          simpa [hparent] using ⟨h r List.mem_cons_self parent hparent, hrest⟩

/-- In any model there is one relation for each record with a parent, in the order of the records,
with the length of the longest walk up from the parent. -/
theorem detectParentChild_places (m : Model) :
    List.Forall₂ (Places m) (m.records.filter (·.parent.isSome)) (detectParentChild m) :=
  forall₂_detectParentChild fun _ _ _ hparent => places_relation hparent

end Schema
end XmlShape
