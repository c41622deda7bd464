import Mathlib.Algebra.BigOperators.Group.Finset.Basic
import XmlShape.Proofs.Schema.Relations

/-!
# Shared children

The parents of each name are gathered first, and then they are paired with each other. The gathering
is a map of sets, so both steps go in ascending order and meet nothing twice: the relations are
strictly sorted, and how many there are follows from the sizes of the sets.
-/

namespace XmlShape
namespace Schema

variable {m : Model}

/-!
# Parents of a name
-/

def parentsOf (m : Model) (name : String) : Finset String :=
  ((m.records.filter (·.name = name)).filterMap (·.parent)).toFinset

theorem mem_parentsOf {name parent : String} :
    parent ∈ parentsOf m name ↔ ∃ r ∈ m.records, r.parent = some parent ∧ r.name = name := by
  simp only [parentsOf, List.mem_toFinset, List.mem_filterMap, List.mem_filter,
    decide_eq_true_eq, and_assoc]
  exact exists_congr fun r => and_congr_right fun _ => and_comm

theorem card_parentsOf {name : String} {parents : NameSet}
    (h : (contexts m.records).get? name = some parents) :
    (parentsOf m name).card = parents.keys.length := by
  have hparents : parents.keys.toFinset = parentsOf m name := by
    ext parent
    rw [List.mem_toFinset, mem_parentsOf, ← hasParent_contexts, HasParent, h]
    simp
  rw [← hparents, List.toFinset_card_of_nodup parents.nodup_keys]

theorem parentsOf_eq_empty {name : String} (h : name ∉ (contexts m.records).keys) :
    parentsOf m name = ∅ := by
  rw [Finset.eq_empty_iff_forall_notMem]
  intro parent hparent
  rw [mem_parentsOf, ← hasParent_contexts] at hparent
  rcases hparent with ⟨parents, hfound, _⟩
  exact h (NameMap.mem_keys_of_get? hfound)

theorem mem_names_of_mem_contexts {name : String} (h : name ∈ (contexts m.records).keys) :
    name ∈ m.records.map (·.name) := by
  rw [NameMap.mem_keys, Option.isSome_iff_exists] at h
  rcases h with ⟨parents, hparents⟩
  rcases hasParents_contexts m.records name parents hparents with ⟨parent, hmem⟩
  rcases hasParent_contexts.mp ⟨parents, hparents, hmem⟩ with ⟨r, hr, _, hname⟩
  exact List.mem_map.mpr ⟨r, hr, hname⟩

/-!
# Pairs of parents
-/

def pairing (m : Model) (linking first second : String) : ManyToMany where
  first
  second
  linking
  confidence := manyToManyConfidence (m.frequencyOf first) (m.frequencyOf second)

/-- The relations of a name, made of all pairs of its parents. -/
def pairings (m : Model) (linking : String) (parents : List String) : List ManyToMany :=
  parents.flatMap fun first => (parents.filter (· ≠ first)).map (pairing m linking first)

theorem detectManyToMany_eq (m : Model) :
    detectManyToMany m =
      (contexts m.records).entries.flatMap fun entry => pairings m entry.1 entry.2.keys :=
  rfl

/-- Relations are ordered by the name they share, and then by the first and the second parent. -/
def ManyToMany.Precedes (r s : ManyToMany) : Prop :=
  r.linking < s.linking ∨
    r.linking = s.linking ∧ (r.first < s.first ∨ r.first = s.first ∧ r.second < s.second)

theorem mem_pairings {linking : String} {parents : List String} {r : ManyToMany} :
    r ∈ pairings m linking parents ↔ ∃ first ∈ parents, ∃ second ∈ parents,
      second ≠ first ∧ pairing m linking first second = r := by
  simp [pairings, and_assoc]

theorem length_pairings (linking : String) {parents : List String} (h : parents.Nodup) :
    (pairings m linking parents).length = parents.length * (parents.length - 1) := by
  have hothers : ∀ first ∈ parents,
      ((parents.filter (· ≠ first)).map (pairing m linking first)).length =
        parents.length - 1 := by
    intro first hfirst
    have hfilter : parents.filter (· ≠ first) = parents.erase first := by
      rw [h.erase_eq_filter]
      apply List.filter_congr
      intro other _
      rw [Bool.eq_iff_iff, decide_eq_true_iff, bne_iff_ne]
    rw [List.length_map, hfilter, List.length_erase_of_mem hfirst]
  rw [pairings, List.length_flatMap, List.map_congr_left hothers, List.map_const',
    List.sum_replicate_nat]

theorem sorted_pairings (linking : String) {parents : List String}
    (h : parents.Pairwise (· < ·)) : (pairings m linking parents).Pairwise ManyToMany.Precedes := by
  rw [pairings, List.pairwise_flatMap]
  constructor
  · intro first _
    rw [List.pairwise_map]
    refine (h.filter _).imp ?_
    intro second second' hlt
    exact Or.inr ⟨rfl, Or.inr ⟨rfl, hlt⟩⟩
  · refine h.imp ?_
    intro first first' hlt r hr s hs
    rcases List.mem_map.mp hr with ⟨second, _, rfl⟩
    rcases List.mem_map.mp hs with ⟨second', _, rfl⟩
    exact Or.inr ⟨rfl, Or.inl hlt⟩

/-!
# All relations
-/

theorem sorted_detectManyToMany (m : Model) :
    (detectManyToMany m).Pairwise ManyToMany.Precedes := by
  rw [detectManyToMany_eq, List.pairwise_flatMap]
  constructor
  · intro entry _
    exact sorted_pairings entry.1 entry.2.sorted
  · refine (List.pairwise_map.mp (contexts m.records).sorted).imp ?_
    intro entry entry' hlt r hr s hs
    rcases mem_pairings.mp hr with ⟨_, _, _, _, _, rfl⟩
    rcases mem_pairings.mp hs with ⟨_, _, _, _, _, rfl⟩
    exact Or.inl hlt

theorem nodup_detectManyToMany (m : Model) :
    ((detectManyToMany m).map fun r => (r.first, r.second, r.linking)).Nodup := by
  rw [List.Nodup, List.pairwise_map]
  refine (sorted_detectManyToMany m).imp ?_
  rintro r s hprecedes hsame
  obtain ⟨hfirst, hsecond, hlinking⟩ : r.first = s.first ∧ r.second = s.second ∧
      r.linking = s.linking := by simpa using hsame
  rcases hprecedes with hlt | ⟨_, hlt | ⟨_, hlt⟩⟩
  · exact String.ne_of_lt hlt hlinking
  · exact String.ne_of_lt hlt hfirst
  · exact String.ne_of_lt hlt hsecond

theorem countP_detectManyToMany (m : Model) (first second linking : String) :
    (detectManyToMany m).countP
        (fun r => r.first = first ∧ r.second = second ∧ r.linking = linking) =
      if first ≠ second ∧ (∃ r ∈ m.records, r.parent = some first ∧ r.name = linking) ∧
        ∃ r ∈ m.records, r.parent = some second ∧ r.name = linking then 1 else 0 := by
  have hcount : (detectManyToMany m).countP
        (fun r => r.first = first ∧ r.second = second ∧ r.linking = linking) =
      ((detectManyToMany m).map fun r => (r.first, r.second, r.linking)).count
        (first, second, linking) := by
    rw [List.count, List.countP_map]
    apply List.countP_congr
    intro r _
    simp
  have hmem : (first, second, linking) ∈
        (detectManyToMany m).map (fun r => (r.first, r.second, r.linking)) ↔
      first ≠ second ∧ (∃ r ∈ m.records, r.parent = some first ∧ r.name = linking) ∧
        ∃ r ∈ m.records, r.parent = some second ∧ r.name = linking := by
    rw [← exists_manyToMany_iff]
    simp
  rw [hcount, (nodup_detectManyToMany m).count]
  simp only [hmem]

theorem length_detectManyToMany (m : Model) :
    (detectManyToMany m).length =
      ∑ name ∈ (m.records.map (·.name)).toFinset,
        (parentsOf m name).card * ((parentsOf m name).card - 1) := by
  have hentries : ∀ entry ∈ (contexts m.records).entries,
      (pairings m entry.1 entry.2.keys).length =
        (parentsOf m entry.1).card * ((parentsOf m entry.1).card - 1) := by
    intro entry hentry
    rw [length_pairings entry.1 entry.2.nodup_keys,
      card_parentsOf (NameMap.mem_entries.mp hentry)]
  have hkeys : (contexts m.records).keys.toFinset ⊆ (m.records.map (·.name)).toFinset := by
    intro name hname
    rw [List.mem_toFinset] at hname ⊢
    exact mem_names_of_mem_contexts hname
  rw [detectManyToMany_eq, List.length_flatMap, List.map_congr_left hentries,
    ← Finset.sum_subset hkeys, List.sum_toFinset _ (contexts m.records).nodup_keys, NameMap.keys,
    List.map_map]
  · rfl
  · intro name _ hname
    rw [List.mem_toFinset] at hname
    rw [parentsOf_eq_empty hname]
    rfl

theorem manyToManyConfidence_eq (firstCount secondCount : Nat) :
    manyToManyConfidence firstCount secondCount =
      if 1 < firstCount ∧ 1 < secondCount then 0.8
      else if 1 < firstCount ∨ 1 < secondCount then 0.6 else 0.4 := by
  by_cases hfirst : 1 < firstCount <;> by_cases hsecond : 1 < secondCount <;>
    simp [manyToManyConfidence, hfirst, hsecond]

theorem manyToManyConfidence_comm (firstCount secondCount : Nat) :
    manyToManyConfidence firstCount secondCount = manyToManyConfidence secondCount firstCount := by
  simp only [manyToManyConfidence_eq, and_comm, or_comm]

theorem exists_pairing_of_mem {r : ManyToMany} (h : r ∈ detectManyToMany m) :
    pairing m r.linking r.first r.second = r ∧
      pairing m r.linking r.second r.first ∈ detectManyToMany m := by
  rw [detectManyToMany_eq, List.mem_flatMap] at h
  rcases h with ⟨entry, hentry, hr⟩
  rcases mem_pairings.mp hr with ⟨first, hfirst, second, hsecond, hne, rfl⟩
  refine ⟨rfl, ?_⟩
  rw [detectManyToMany_eq, List.mem_flatMap]
  exact ⟨entry, hentry, mem_pairings.mpr ⟨second, hsecond, first, hfirst, hne.symm, rfl⟩⟩

structure Shares (m : Model) (relations : List ManyToMany) : Prop where
  /-- Each pair of different parents is there once for each name that both have. -/
  once : ∀ first second linking,
    relations.countP (fun r => r.first = first ∧ r.second = second ∧ r.linking = linking) =
      if first ≠ second ∧ (∃ r ∈ m.records, r.parent = some first ∧ r.name = linking) ∧
        ∃ r ∈ m.records, r.parent = some second ∧ r.name = linking then 1 else 0
  sorted : relations.Pairwise ManyToMany.Precedes
  length : relations.length =
    ∑ name ∈ (m.records.map (·.name)).toFinset,
      (parentsOf m name).card * ((parentsOf m name).card - 1)
  confidence : ∀ r ∈ relations, r.confidence =
    if 1 < m.frequencyOf r.first ∧ 1 < m.frequencyOf r.second then 0.8
    else if 1 < m.frequencyOf r.first ∨ 1 < m.frequencyOf r.second then 0.6 else 0.4
  symm : ∀ r ∈ relations, { r with first := r.second, second := r.first } ∈ relations

theorem detectManyToMany_shares (m : Model) : Shares m (detectManyToMany m) := by
  constructor
  · exact countP_detectManyToMany m
  · exact sorted_detectManyToMany m
  · exact length_detectManyToMany m
  · intro r hr
    rw [← (exists_pairing_of_mem hr).1]
    exact manyToManyConfidence_eq _ _
  · intro r hr
    rcases exists_pairing_of_mem hr with ⟨hpairing, hturned⟩
    rw [← hpairing]
    rw [pairing, manyToManyConfidence_comm] at hturned
    exact hturned

end Schema
end XmlShape
