import Mathlib.Data.List.Perm.Basic
import XmlShape.Analysis
import XmlShape.Proofs.Schema.Containers
import XmlShape.Proofs.Schema.Cycles
import XmlShape.Proofs.Schema.Patterns
import XmlShape.Proofs.Schema.Relations

/-!
# Models with their records in another order

The records of two models are the same up to their order, the order of the children in each and the
occurrence counts. Each detector goes through the records in its own way, and none of them depends
on more: what is a map, a sorted list or a number comes out the same, and what lists relations
record by record lists the same relations.
-/

open Relation

namespace XmlShape
namespace Schema

/-!
# Lists up to order
-/

/-- Each item of the one list is related to its own item of the other. -/
def Paired {α β : Type} (related : α → β → Prop) (xs : List α) (ys : List β) : Prop :=
  ∃ zs, List.Forall₂ related xs zs ∧ zs.Perm ys

theorem forall₂_transfer {α β γ δ : Type} {related : α → β → Prop} {describes : α → γ → Prop}
    {describes' : β → δ → Prop} {related' : γ → δ → Prop} {xs : List α} {ys : List β}
    {rs : List γ} {ss : List δ}
    (hrelated : ∀ x y r s, related x y → describes x r → describes' y s → related' r s)
    (h : List.Forall₂ related xs ys) (hrs : List.Forall₂ describes xs rs)
    (hss : List.Forall₂ describes' ys ss) : List.Forall₂ related' rs ss := by
  induction h generalizing rs ss with
  | nil =>
      cases hrs
      cases hss
      exact List.Forall₂.nil
  | cons hxy _ ih =>
      cases hrs with
      | cons hr hrs =>
          cases hss with
          | cons hs hss =>
              exact List.Forall₂.cons (hrelated _ _ _ _ hxy hr hs) (ih hrs hss)

theorem forall₂_filter {α β : Type} {related : α → β → Prop} {p : α → Bool} {q : β → Bool}
    {xs : List α} {ys : List β} (hpq : ∀ x y, related x y → p x = q y)
    (h : List.Forall₂ related xs ys) : List.Forall₂ related (xs.filter p) (ys.filter q) := by
  induction h with
  | nil =>
      exact List.Forall₂.nil
  | cons hxy _ ih =>
      rw [List.filter_cons, List.filter_cons, hpq _ _ hxy]
      split
      · exact List.Forall₂.cons hxy ih
      · exact ih

namespace Paired

variable {α β γ δ : Type} {related : α → β → Prop} {xs : List α} {ys : List β}

theorem of_forall₂ (h : List.Forall₂ related xs ys) : Paired related xs ys :=
  ⟨ys, h, List.Perm.refl ys⟩

theorem append {xs' : List α} {ys' : List β} (h : Paired related xs ys)
    (h' : Paired related xs' ys') : Paired related (xs ++ xs') (ys ++ ys') := by
  obtain ⟨zs, hrelated, hperm⟩ := h
  obtain ⟨zs', hrelated', hperm'⟩ := h'
  exact ⟨zs ++ zs', List.rel_append hrelated hrelated', hperm.append hperm'⟩

theorem perm_right {ys' : List β} (h : Paired related xs ys) (hperm : ys.Perm ys') :
    Paired related xs ys' := by
  obtain ⟨zs, hrelated, hzs⟩ := h
  exact ⟨zs, hrelated, hzs.trans hperm⟩

theorem transfer {describes : α → γ → Prop} {describes' : β → δ → Prop} {related' : γ → δ → Prop}
    {rs : List γ} {ss : List δ} (h : Paired related xs ys) (hrs : List.Forall₂ describes xs rs)
    (hss : List.Forall₂ describes' ys ss)
    (hrelated : ∀ x y r s, related x y → describes x r → describes' y s → related' r s) :
    Paired related' rs ss := by
  obtain ⟨zs, hzs, hperm⟩ := h
  obtain ⟨ts, hts, hperm'⟩ := List.perm_comp_forall₂ hperm hss
  exact ⟨ts, forall₂_transfer hrelated hzs hrs hts, hperm'⟩

theorem map {related' : γ → δ → Prop} {f : α → γ} {g : β → δ} (h : Paired related xs ys)
    (hfg : ∀ x y, related x y → related' (f x) (g y)) :
    Paired related' (xs.map f) (ys.map g) := by
  obtain ⟨zs, hrelated, hperm⟩ := h
  refine ⟨zs.map g, ?_, hperm.map g⟩
  rw [List.forall₂_map_left_iff, List.forall₂_map_right_iff]
  exact hrelated.imp hfg

theorem filter {p : α → Bool} {q : β → Bool} (h : Paired related xs ys)
    (hpq : ∀ x y, related x y → p x = q y) : Paired related (xs.filter p) (ys.filter q) := by
  obtain ⟨zs, hrelated, hperm⟩ := h
  exact ⟨zs.filter q, forall₂_filter hpq hrelated, hperm.filter q⟩

theorem map_perm {f : α → γ} {g : β → γ} (h : Paired related xs ys)
    (hfg : ∀ x y, related x y → f x = g y) : (xs.map f).Perm (ys.map g) := by
  obtain ⟨zs, hrelated, hperm⟩ := h
  rw [← map_eq_of_forall₂ (fun x z hxz => (hfg x z hxz).symm) hrelated]
  exact hperm.map g

theorem flatten_perm {xss yss : List (List α)} (h : Paired List.Perm xss yss) :
    xss.flatten.Perm yss.flatten := by
  obtain ⟨zss, hrelated, hperm⟩ := h
  exact (List.Perm.flatten_congr hrelated).trans hperm.flatten

theorem length_eq (h : Paired related xs ys) : xs.length = ys.length := by
  obtain ⟨zs, hrelated, hperm⟩ := h
  exact hrelated.length_eq.trans hperm.length_eq

theorem exists_iff {p : α → Prop} {q : β → Prop} (h : Paired related xs ys)
    (hpq : ∀ x y, related x y → (p x ↔ q y)) : (∃ x ∈ xs, p x) ↔ ∃ y ∈ ys, q y := by
  obtain ⟨zs, hrelated, hperm⟩ := h
  simp only [← hperm.mem_iff]
  clear hperm
  induction hrelated with
  | nil =>
      simp
  | cons hxy _ ih =>
      rw [List.exists_mem_cons_iff, List.exists_mem_cons_iff, hpq _ _ hxy, ih]

end Paired

/-!
# Records up to order
-/

/-- Records that tell the same of an element, but for the order of its children and its occurrence
count. -/
structure SameUpToOrder (r r' : Record) : Prop where
  name : r.name = r'.name
  type : r.type = r'.type
  parent : r.parent = r'.parent
  depth : r.depth = r'.depth
  attributes : r.attributes = r'.attributes
  children : r.children.Perm r'.children

/-- Models with the same frequencies and, up to order, the same records. -/
structure Rearranged (m m' : Model) : Prop where
  frequency : m.frequency = m'.frequency
  records : Paired SameUpToOrder m.records m'.records

theorem SameUpToOrder.typesNamed_perm {r r' : Record} (h : SameUpToOrder r r') (name : String) :
    (typesNamed name r.children).Perm (typesNamed name r'.children) :=
  (h.children.filter _).map _

theorem countNames_perm {children children' : List Child} (h : children.Perm children') :
    countNames children = countNames children' := by
  have hcount : (children.map (·.name)).count = (children'.map (·.name)).count := by
    funext name
    exact (h.map _).count_eq name
  have htallies := tallies_countNames children
  rw [hcount] at htallies
  exact htallies.eq (tallies_countNames children')

theorem SameUpToOrder.repeatedChildren_eq {r r' : Record} (h : SameUpToOrder r r') :
    repeatedChildren r = repeatedChildren r' := by
  unfold repeatedChildren Record.childCounts
  rw [h.name, countNames_perm h.children]

/-!
# Parents of names

An index of parents holds a set for a name only when it has put a parent there. What it holds is
therefore settled by which names have which parents.
-/

theorem NameSet.ext_mem_keys {s t : NameSet} (h : ∀ name, name ∈ s.keys ↔ name ∈ t.keys) :
    s = t :=
  NameMap.ext_keys h fun _ _ _ _ _ => rfl

theorem contexts_congr {records records' : List Record}
    (h : ∀ name parent, (∃ r ∈ records, r.parent = some parent ∧ r.name = name) ↔
      ∃ r ∈ records', r.parent = some parent ∧ r.name = name) :
    contexts records = contexts records' := by
  have hparent : ∀ name parent,
      HasParent (contexts records) name parent ↔ HasParent (contexts records') name parent := by
    intro name parent
    rw [hasParent_contexts, hasParent_contexts, h name parent]
  have hkeys : ∀ (records : List Record) (name : String), name ∈ (contexts records).keys ↔
      ∃ parent, HasParent (contexts records) name parent := by
    intro records name
    rw [NameMap.mem_keys, Option.isSome_iff_exists]
    constructor
    · rintro ⟨parents, hparents⟩
      obtain ⟨parent, hmem⟩ := hasParents_contexts records name parents hparents
      exact ⟨parent, parents, hparents, hmem⟩
    · rintro ⟨_, parents, hparents, _⟩
      exact ⟨parents, hparents⟩
  apply NameMap.ext_keys
  · intro name
    simp only [hkeys, hparent]
  · intro name parents parents' hfound hfound'
    apply NameSet.ext_mem_keys
    intro other
    have hother := hparent name other
    unfold HasParent at hother
    simpa [hfound, hfound'] using hother

/-!
# Detectors
-/

section Detectors

variable {m m' : Model} (h : Rearranged m m')

include h

theorem Rearranged.exists_nested {parent name : String} :
    (∃ r ∈ m.records, r.parent = some parent ∧ r.name = name) ↔
      ∃ r ∈ m'.records, r.parent = some parent ∧ r.name = name := by
  apply h.records.exists_iff
  intro r r' hr
  rw [hr.parent, hr.name]

/-- Relations of one parent to many children are listed with the parents, which may change
places. -/
theorem Rearranged.detectOneToMany_perm : (detectOneToMany m).Perm (detectOneToMany m') := by
  have hlists : (m.records.map repeatedChildren).Perm (m'.records.map repeatedChildren) :=
    h.records.map_perm fun _ _ hr => hr.repeatedChildren_eq
  exact hlists.flatten

theorem Rearranged.detectManyToMany_eq : detectManyToMany m = detectManyToMany m' := by
  have hcontexts : contexts m.records = contexts m'.records :=
    contexts_congr fun _ _ => h.exists_nested
  unfold detectManyToMany Model.frequencyOf
  rw [hcontexts, h.frequency]

theorem Rearranged.length_detectParentChild :
    (detectParentChild m).length = (detectParentChild m').length := by
  have hparents : (m.records.map (·.parent)).Perm (m'.records.map (·.parent)) :=
    h.records.map_perm fun _ _ hr => hr.parent
  have hcount := hparents.countP_eq Option.isSome
  rw [List.countP_map, List.countP_map] at hcount
  rw [Schema.length_detectParentChild, Schema.length_detectParentChild]
  exact hcount

theorem Rearranged.nests_eq : Nests m = Nests m' := by
  funext parent name
  unfold Nests Model.distinctNames
  rw [h.frequency, h.exists_nested]

theorem Rearranged.recursiveNamesBy_eq {components : NameGraph → List (List String)}
    (hcomponents : ∀ g : NameGraph, g.IsComponents (components g)) :
    recursiveNamesBy components m = recursiveNamesBy components m' := by
  have : Std.Antisymm fun a b : String => a < b :=
    ⟨fun a b hab hba => absurd hba (String.lt_asymm hab)⟩
  have : Std.Irrefl fun a b : String => a < b :=
    ⟨String.lt_irrefl⟩
  apply (sorted_recursiveNamesBy hcomponents m).eq_of_mem_iff (sorted_recursiveNamesBy hcomponents m')
  intro name
  rw [mem_recursiveNamesBy hcomponents, mem_recursiveNamesBy hcomponents, h.nests_eq]

end Detectors

/-!
# Fields
-/

theorem shapeOf_paired {item : String} {groups groups' : List (List ElementType)}
    (h : Paired List.Perm groups groups') : shapeOf item groups = shapeOf item groups' := by
  have hany : groups.any (1 < ·.length) = groups'.any (1 < ·.length) := by
    rw [Bool.eq_iff_iff, List.any_eq_true, List.any_eq_true]
    apply h.exists_iff
    intro group group' hperm
    rw [hperm.length_eq]
  unfold shapeOf
  rw [widenAll?_perm h.flatten_perm, hany]

theorem ext_fieldAt? {fields fields' : NameMap Fields}
    (hkeys : ∀ parent, parent ∈ fields.keys ↔ parent ∈ fields'.keys)
    (hshapes : ∀ parent name, fieldAt? fields parent name = fieldAt? fields' parent name) :
    fields = fields' := by
  apply NameMap.ext_keys hkeys
  intro parent own own' hown hown'
  apply NameMap.ext_get?
  intro name
  have hshape := hshapes parent name
  unfold fieldAt? at hshape
  rw [hown, hown'] at hshape
  exact hshape

section Models

variable {m m' : Model} (h : Rearranged m m')

include h

theorem Rearranged.compositeRecords :
    Paired SameUpToOrder m.compositeRecords m'.compositeRecords := by
  apply h.records.filter
  intro r r' hr
  rw [hr.type]

theorem Rearranged.typeGroups (parent name : String) :
    Paired List.Perm (typeGroups m.compositeRecords parent name)
      (typeGroups m'.compositeRecords parent name) := by
  have hnamed := h.compositeRecords.filter (p := (·.name = parent)) (q := (·.name = parent))
    fun r r' hr => by rw [hr.name]
  exact hnamed.map fun _ _ hr => hr.typesNamed_perm name

theorem Rearranged.resolveAll_noContainers_eq :
    resolveAll m .noContainers = resolveAll m' .noContainers := by
  apply ext_fieldAt?
  · intro parent
    rw [(holdsResolved_resolveAll m .noContainers).keys,
      (holdsResolved_resolveAll m' .noContainers).keys]
    apply h.compositeRecords.exists_iff
    intro r r' hr
    rw [hr.name]
  · intro parent name
    rw [fieldAt?, fieldAt?, shapes_resolveAll_noContainers, shapes_resolveAll_noContainers,
      shapeOf_paired (h.typeGroups parent name)]

end Models

/-!
# Statistics
-/

theorem length_eraseDups_perm {names names' : List String} (hnames : names.Perm names') :
    names.eraseDups.length = names'.eraseDups.length := by
  apply List.Perm.length_eq
  rw [List.perm_ext_iff_of_nodup (nodup_eraseDups names) (nodup_eraseDups names')]
  intro name
  rw [List.mem_eraseDups, List.mem_eraseDups, hnames.mem_iff]

theorem Rearranged.statsOf_eq {m m' : Model} (h : Rearranged m m') :
    statsOf m (detectRelations m) = statsOf m' (detectRelations m') := by
  have helements : m.records.length = m'.records.length := h.records.length_eq
  have hcomposite : (m.compositeRecords.map (·.name)).eraseDups.length =
      (m'.compositeRecords.map (·.name)).eraseDups.length :=
    length_eraseDups_perm (h.compositeRecords.map_perm fun _ _ hr => hr.name)
  have hattributes : m.records.foldl (fun total r => total + r.attributes.size) 0 =
      m'.records.foldl (fun total r => total + r.attributes.size) 0 := by
    have hsizes : (m.records.map (·.attributes.size)).Perm (m'.records.map (·.attributes.size)) :=
      h.records.map_perm fun _ _ hr => by rw [hr.attributes]
    have hfold : ∀ n : Model, n.records.foldl (fun total r => total + r.attributes.size) 0 =
        (n.records.map (·.attributes.size)).foldl (· + ·) 0 := by
      intro n
      exact List.foldl_map.symm
    rw [hfold, hfold, hsizes.foldl_op_eq]
  have hdepth : m.maxDepth = m'.maxDepth := by
    have hdepths : (m.records.map (·.depth)).Perm (m'.records.map (·.depth)) :=
      h.records.map_perm fun _ _ hr => hr.depth
    exact hdepths.foldl_op_eq
  have hrelations : (detectRelations m).size = (detectRelations m').size := by
    unfold Relations.size detectRelations
    rw [h.detectOneToMany_perm.length_eq, h.detectManyToMany_eq, h.length_detectParentChild]
  unfold statsOf
  rw [helements, h.frequency, hcomposite, hattributes, hdepth, hrelations]

/-!
# Patterns
-/

theorem Rearranged.map_name_patterns {m m' : Model} (h : Rearranged m m') :
    (repeatingPatterns m.records m.frequency).map (·.name) =
      (repeatingPatterns m'.records m'.frequency).map (·.name) := by
  rw [h.frequency]
  apply map_repeatingPatterns
  intro name
  have hnamed : (∃ r ∈ m.records, r.name = name) ↔ ∃ r ∈ m'.records, r.name = name := by
    apply h.records.exists_iff
    intro r r' hr
    rw [hr.name]
  simp only [map_name_patternOf?, hnamed]

end Schema
end XmlShape
