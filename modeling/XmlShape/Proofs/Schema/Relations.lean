import XmlShape.Proofs.Schema.Fields
import XmlShape.Schema.Relations

/-!
# Relations in a model

The detectors go through the records and do not know of each other. What each of them finds is told
first by the records of any model, and then by the elements of a scanned tree.
-/

namespace XmlShape
namespace Schema

/-!
# Repeated children
-/

theorem get?_childCounts (r : Record) (name : String) :
    r.childCounts.get? name =
      if (typesNamed name r.children).length = 0 then none
      else some (typesNamed name r.children).length := by
  rw [length_typesNamed]
  exact tallies_countNames r.children name

theorem get?_childCounts_eq_some {r : Record} {name : String} {k : Nat} (hk : 2 ≤ k) :
    r.childCounts.get? name = some k ↔ (typesNamed name r.children).length = k := by
  have hpos : 0 ≠ k := Nat.ne_of_lt (Nat.lt_of_lt_of_le Nat.two_pos hk)
  rw [get?_childCounts]
  split
  · next hzero => simp [hzero, hpos]
  · next => exact Option.some_inj

theorem countP_repeatedChildren (r : Record) (parent child : String) {k : Nat} (hk : 2 ≤ k) :
    (repeatedChildren r).countP
        (fun o => o.parent = parent ∧ o.child = child ∧ o.cardinality = k) =
      if r.name = parent ∧ (typesNamed child r.children).length = k then 1 else 0 := by
  rw [repeatedChildren, List.countP_map, List.countP_filter]
  by_cases hparent : r.name = parent
  · have hcount : r.childCounts.toList.count (child, k) =
        if r.name = parent ∧ (typesNamed child r.children).length = k then 1 else 0 := by
      rw [NameMap.toList, NameMap.count_entries]
      simp only [get?_childCounts_eq_some hk, hparent, true_and]
    -- What is counted is the one entry that has both the name and the count.
    rw [← hcount, List.count]
    apply List.countP_congr
    rintro ⟨name, count⟩ _
    have hrepeats : count = k → 1 < count := by
      rintro rfl
      exact hk
    simpa [hparent] using fun _ => hrepeats
  · simp [hparent]

theorem countP_detectOneToMany (m : Model) (parent child : String) {k : Nat} (hk : 2 ≤ k) :
    (detectOneToMany m).countP
        (fun o => o.parent = parent ∧ o.child = child ∧ o.cardinality = k) =
      m.records.countP fun r =>
        r.name = parent ∧ (typesNamed child r.children).length = k := by
  rw [detectOneToMany]
  induction m.records with
  | nil =>
      rfl
  | cons r records ih =>
      rw [List.flatMap_cons, List.countP_append, countP_repeatedChildren r parent child hk, ih,
        List.countP_cons, Nat.add_comm]
      simp only [decide_eq_true_eq]

theorem two_le_cardinality {m : Model} : ∀ o ∈ detectOneToMany m, 2 ≤ o.cardinality := by
  intro o ho
  obtain ⟨r, _, ho⟩ := List.mem_flatMap.mp ho
  obtain ⟨⟨child, cardinality⟩, hentry, rfl⟩ := List.mem_map.mp ho
  exact of_decide_eq_true (List.mem_filter.mp hentry).2

theorem countP_detectOneToMany_scan (options : ScanOptions) (root : Element)
    (parent child : String) {k : Nat} (hk : 2 ≤ k) :
    (detectOneToMany (scan options root)).countP
        (fun o => o.parent = parent ∧ o.child = child ∧ o.cardinality = k) =
      (elements root).countP fun e => e.name = parent ∧ (childrenNamed child e).length = k := by
  rw [countP_detectOneToMany _ parent child hk]
  apply countP_records _ (describes_scan options root)
  intro v r h
  rw [h.name, typesNamed_eq child v r h, List.length_map]

theorem exists_oneToMany_scan {options : ScanOptions} {root : Element} {parent child : String} :
    (∃ o ∈ detectOneToMany (scan options root), o.parent = parent ∧ o.child = child) ↔
      ∃ e ∈ elements root, e.name = parent ∧ 2 ≤ (childrenNamed child e).length := by
  constructor
  · rintro ⟨o, ho, hparent, hchild⟩
    have htwo := two_le_cardinality o ho
    have hpos := countP_detectOneToMany_scan options root parent child htwo
    have : 0 < (elements root).countP fun e =>
        e.name = parent ∧ (childrenNamed child e).length = o.cardinality := by
      rw [← hpos, List.countP_pos_iff]
      exact ⟨o, ho, by simp [hparent, hchild]⟩
    obtain ⟨e, he, hselect⟩ := List.countP_pos_iff.mp this
    obtain ⟨hname, hlength⟩ := of_decide_eq_true hselect
    exact ⟨e, he, hname, hlength ▸ htwo⟩
  · rintro ⟨e, he, hname, htwo⟩
    have : 0 < (detectOneToMany (scan options root)).countP fun o =>
        o.parent = parent ∧ o.child = child ∧ o.cardinality = (childrenNamed child e).length := by
      rw [countP_detectOneToMany_scan options root parent child htwo, List.countP_pos_iff]
      exact ⟨e, he, by simp [hname]⟩
    obtain ⟨o, ho, hselect⟩ := List.countP_pos_iff.mp this
    obtain ⟨hparent, hchild, _⟩ := of_decide_eq_true hselect
    exact ⟨o, ho, hparent, hchild⟩

/-!
# Shared children
-/

def HasParent (found : NameMap NameSet) (name parent : String) : Prop :=
  ∃ parents, found.get? name = some parents ∧ parent ∈ parents.keys

def HoldsParents (records : List Record) (found : NameMap NameSet) : Prop :=
  ∀ name parent, HasParent found name parent ↔
    ∃ r ∈ records, r.parent = some parent ∧ r.name = name

def addContext (found : NameMap NameSet) (r : Record) : NameMap NameSet :=
  match r.parent with
  | some parent => found.update r.name fun parents? => (parents?.getD .empty).insert parent ()
  | none => found

theorem hasParent_update {found : NameMap NameSet} {name parent other new : String} :
    HasParent (found.update other fun parents? => (parents?.getD .empty).insert new ())
        name parent ↔
      HasParent found name parent ∨ new = parent ∧ other = name := by
  unfold HasParent
  rw [NameMap.get?_update]
  by_cases hname : name = other
  · subst hname
    cases found.get? name <;> simp [NameMap.mem_keys_insert, or_comm, eq_comm]
  · simp [hname, Ne.symm hname]

theorem HoldsParents.add {records : List Record} {found : NameMap NameSet}
    (h : HoldsParents records found) (r : Record) :
    HoldsParents (records ++ [r]) (addContext found r) := by
  intro name parent
  have hrecords : (∃ other ∈ records ++ [r], other.parent = some parent ∧ other.name = name) ↔
      HasParent found name parent ∨ r.parent = some parent ∧ r.name = name := by
    rw [h name parent]
    simp [or_and_right, exists_or]
  rw [hrecords, addContext]
  cases r.parent with
  | none =>
      simp
  | some new =>
      rw [hasParent_update, Option.some_inj]

theorem hasParent_contexts {records : List Record} {name parent : String} :
    HasParent (contexts records) name parent ↔
      ∃ r ∈ records, r.parent = some parent ∧ r.name = name := by
  have hempty : HoldsParents [] .empty := by
    intro name parent
    simp [HasParent]
  exact foldl_invariant (motive := HoldsParents) HoldsParents.add records hempty name parent

def HasParents (found : NameMap NameSet) : Prop :=
  ∀ name parents, found.get? name = some parents → ∃ parent, parent ∈ parents.keys

theorem HasParents.add {found : NameMap NameSet} (h : HasParents found) (r : Record) :
    HasParents (addContext found r) := by
  unfold addContext
  cases r.parent with
  | none =>
      exact h
  | some new =>
      intro name parents hparents
      rw [NameMap.get?_update] at hparents
      by_cases hname : name = r.name
      · rw [if_pos hname, Option.some_inj] at hparents
        rw [← hparents]
        exact ⟨new, NameMap.mem_keys_insert.mpr (Or.inl rfl)⟩
      · rw [if_neg hname] at hparents
        exact h name parents hparents

theorem hasParents_contexts (records : List Record) : HasParents (contexts records) := by
  have hempty : HasParents .empty := by
    intro name parents hparents
    cases hparents
  exact List.foldlRecOn records addContext hempty fun _ h r _ => h.add r

theorem exists_manyToMany_iff {m : Model} {first second linking : String} :
    (∃ r ∈ detectManyToMany m, r.first = first ∧ r.second = second ∧ r.linking = linking) ↔
      first ≠ second ∧ (∃ r ∈ m.records, r.parent = some first ∧ r.name = linking) ∧
        ∃ r ∈ m.records, r.parent = some second ∧ r.name = linking := by
  rw [← hasParent_contexts, ← hasParent_contexts]
  constructor
  · rintro ⟨r, hr, rfl, rfl, rfl⟩
    obtain ⟨⟨linking, parents⟩, hentry, hr⟩ := List.mem_flatMap.mp hr
    obtain ⟨first, hfirst, hr⟩ := List.mem_flatMap.mp hr
    obtain ⟨second, hsecond, rfl⟩ := List.mem_map.mp hr
    obtain ⟨hsecond, hne⟩ := List.mem_filter.mp hsecond
    have hparents := NameMap.mem_entries.mp hentry
    exact ⟨Ne.symm (of_decide_eq_true hne), ⟨parents, hparents, hfirst⟩, parents, hparents, hsecond⟩
  · rintro ⟨hne, ⟨parents, hparents, hfirst⟩, others, hothers, hsecond⟩
    rw [hparents, Option.some_inj] at hothers
    subst hothers
    refine ⟨⟨first, second, linking,
      manyToManyConfidence (m.frequencyOf first) (m.frequencyOf second)⟩, ?_, rfl, rfl, rfl⟩
    refine List.mem_flatMap.mpr ⟨(linking, parents), NameMap.mem_entries.mpr hparents, ?_⟩
    refine List.mem_flatMap.mpr ⟨first, hfirst, ?_⟩
    refine List.mem_map.mpr ⟨second, List.mem_filter.mpr ⟨hsecond, ?_⟩, rfl⟩
    exact decide_eq_true (Ne.symm hne)

theorem exists_manyToMany_scan {options : ScanOptions} {root : Element}
    {first second linking : String} :
    (∃ r ∈ detectManyToMany (scan options root),
        r.first = first ∧ r.second = second ∧ r.linking = linking) ↔
      first ≠ second ∧ Contains root first linking ∧ Contains root second linking := by
  rw [exists_manyToMany_iff, exists_record_scan, exists_record_scan]

/-!
# Hierarchy
-/

theorem exists_parentChild_iff {m : Model} {parent child : String} :
    (∃ r ∈ detectParentChild m, r.parent = parent ∧ r.child = child) ↔
      ∃ r ∈ m.records, r.parent = some parent ∧ r.name = child := by
  simp only [detectParentChild, List.mem_filterMap, Option.map_eq_some_iff]
  constructor
  · rintro ⟨_, ⟨r, hr, parent, hparent, rfl⟩, rfl, rfl⟩
    exact ⟨r, hr, hparent, rfl⟩
  · rintro ⟨r, hr, hparent, rfl⟩
    exact ⟨_, ⟨r, hr, parent, hparent, rfl⟩, rfl, rfl⟩

theorem length_detectParentChild (m : Model) :
    (detectParentChild m).length = m.records.countP (·.parent.isSome) := by
  rw [detectParentChild, List.length_filterMap_eq_countP]
  simp

theorem exists_parentChild_scan {options : ScanOptions} {root : Element} {parent child : String} :
    (∃ r ∈ detectParentChild (scan options root), r.parent = parent ∧ r.child = child) ↔
      Contains root parent child := by
  rw [exists_parentChild_iff, exists_record_scan]

end Schema
end XmlShape
