import Mathlib.Algebra.Order.BigOperators.Group.List
import Mathlib.Algebra.Order.Field.Rat
import Mathlib.Tactic.Linarith
import Mathlib.Tactic.Positivity
import Mathlib.Tactic.Ring
import XmlShape.Proofs.Schema.Collapse
import XmlShape.Proofs.Schema.Patterns

/-!
# Repeated names

The names with a pattern are read off the table of frequencies, and the patterns are made of the
records of each name. In a scanned tree both are counted by the same elements, so a name that is
counted twice has a group of at least two records, of which the first is not that of the root. The
score of a group is a mean over all its records but the first, and is told here for exact
arithmetic.
-/

namespace XmlShape
namespace Schema

/-!
# Scores
-/

def likeness (first r : Record) : Nat :=
  (if first.name = r.name then 1 else 0) + (if first.type = r.type then 1 else 0) +
    (if first.children.length = r.children.length then 1 else 0) +
    (if first.attributes.size = r.attributes.size then 1 else 0)

structure IsLike (first r : Record) : Prop where
  name : first.name = r.name
  type : first.type = r.type
  children : first.children.length = r.children.length
  attributes : first.attributes.size = r.attributes.size

theorem agreement_eq_likeness (first r : Record) : agreement first r = likeness first r := by
  simp only [agreement, likeness, List.count_cons, List.count_nil, beq_iff_eq]
  ring

theorem one_le_likeness {first r : Record} (h : first.name = r.name) : 1 ≤ likeness first r := by
  rw [likeness, if_pos h]
  omega

theorem likeness_le (first r : Record) : likeness first r ≤ 4 := by
  unfold likeness
  split <;> split <;> split <;> split <;> decide

theorem likeness_eq_four {first r : Record} : likeness first r = 4 ↔ IsLike first r := by
  constructor
  · intro hfour
    unfold likeness at hfour
    constructor
    all_goals
      by_contra hne
      rw [if_neg hne] at hfour
      split at hfour <;> split at hfour <;> split at hfour <;> omega
  · intro h
    rw [likeness, if_pos h.name, if_pos h.type, if_pos h.children, if_pos h.attributes]

/-- The mean of a group, told by the points that its records score. -/
theorem uniformityIn_cons {first : Record} {rest : List Record} (h : rest ≠ []) :
    uniformityIn (Nat.cast : Nat → ℚ) (first :: rest) =
      (rest.map (likeness first)).sum / (4 * rest.length) := by
  have hsum : (rest.map (similarityIn (Nat.cast : Nat → ℚ) first)).sum =
      ((rest.map (likeness first)).sum : ℚ) / 4 := by
    clear h
    induction rest with
    | nil =>
        simp
    | cons r rest ih =>
        rw [List.map_cons, List.sum_cons, ih, similarityIn, agreement_eq_likeness, List.map_cons,
          List.sum_cons]
        push_cast
        ring
  cases rest with
  | nil =>
      exact absurd rfl h
  | cons second rest =>
      rw [uniformityIn, Nat.cast_zero, ← List.sum_eq_foldl, hsum, div_div]
      simp

structure IsScore (first : Record) (rest : List Record) (k : Nat) (score : ℚ) : Prop where
  eq : score = (rest.map (likeness first)).sum / (4 * (k - 1))
  quarter_le : 1 / 4 ≤ score
  le_one : score ≤ 1
  eq_one : score = 1 ↔ ∀ r ∈ rest, IsLike first r

theorem length_le_sum_likeness {first : Record} {rest : List Record}
    (hnames : ∀ r ∈ rest, first.name = r.name) :
    rest.length ≤ (rest.map (likeness first)).sum := by
  have hone : ∀ points ∈ rest.map (likeness first), 1 ≤ points := by
    intro points hpoints
    rcases List.mem_map.mp hpoints with ⟨r, hr, rfl⟩
    exact one_le_likeness (hnames r hr)
  simpa using List.card_nsmul_le_sum _ 1 hone

theorem sum_likeness_le (first : Record) (rest : List Record) :
    (rest.map (likeness first)).sum ≤ 4 * rest.length := by
  have hfour : ∀ points ∈ rest.map (likeness first), points ≤ 4 := by
    intro points hpoints
    rcases List.mem_map.mp hpoints with ⟨r, _, rfl⟩
    exact likeness_le first r
  simpa [Nat.mul_comm] using List.sum_le_card_nsmul _ 4 hfour

theorem sum_likeness_eq {first : Record} {rest : List Record} :
    (rest.map (likeness first)).sum = 4 * rest.length ↔ ∀ r ∈ rest, IsLike first r := by
  induction rest with
  | nil =>
      simp
  | cons r rest ih =>
      have hr := likeness_le first r
      have hrest := sum_likeness_le first rest
      rw [List.forall_mem_cons, ← ih, ← likeness_eq_four, List.map_cons, List.sum_cons,
        List.length_cons]
      omega

theorem isScore_uniformityIn {first : Record} {rest : List Record} {k : Nat}
    (hk : (first :: rest).length = k) (h : rest ≠ [])
    (hnames : ∀ r ∈ rest, first.name = r.name) :
    IsScore first rest k (uniformityIn (Nat.cast : Nat → ℚ) (first :: rest)) := by
  have hpos : (0 : ℚ) < rest.length := by
    exact_mod_cast List.length_pos_iff.mpr h
  have hlength : (0 : ℚ) < 4 * rest.length := by
    positivity
  have hleast : (rest.length : ℚ) ≤ (rest.map (likeness first)).sum := by
    exact_mod_cast length_le_sum_likeness hnames
  have hgreatest : ((rest.map (likeness first)).sum : ℚ) ≤ 4 * rest.length := by
    exact_mod_cast sum_likeness_le first rest
  rw [uniformityIn_cons h]
  constructor
  · rw [← hk, List.length_cons, Nat.cast_succ, add_sub_cancel_right]
  · rw [le_div_iff₀ hlength]
    linarith
  · exact div_le_one_of_le₀ hgreatest hlength.le
  · rw [div_eq_one_iff_eq hlength.ne', ← sum_likeness_eq]
    exact_mod_cast Iff.rfl

/-!
# Groups
-/

section Groups

variable {options : ScanOptions} {root : Element} {name : String}

theorem count_names (root : Element) (name : String) :
    (names root).count name = (elements root).countP (·.name = name) := by
  rw [names, List.count, List.countP_map]
  apply List.countP_congr
  intro e _
  simp

theorem length_group (options : ScanOptions) (root : Element) (name : String) :
    ((scan options root).records.filter (·.name = name)).length = (names root).count name := by
  rw [count_names, ← List.countP_eq_length_filter]
  exact countP_records (fun v r h => by rw [h.name]) (describes_scan options root)

theorem exists_first_visit (h : 2 ≤ (names root).count name) :
    ∃ v parent, (visits [] root).find? (·.element.name = name) = some v ∧
      v.parent = some parent := by
  rcases visits_root root with ⟨below, hvisits, hbelow⟩
  have hbelowCount : 0 < (below.map (·.element)).countP (·.name = name) := by
    have hroot : ([(⟨root, []⟩ : Visit)].map (·.element)).countP (·.name = name) ≤ 1 :=
      List.countP_le_length
    rw [count_names, elements, hvisits, List.map_append, List.countP_append] at h
    omega
  have hsome : (below.find? (·.element.name = name)).isSome = true := by
    rcases List.countP_pos_iff.mp hbelowCount with ⟨e, he, hname⟩
    rcases List.mem_map.mp he with ⟨v, hv, rfl⟩
    exact List.find?_isSome.mpr ⟨v, hv, hname⟩
  rcases Option.isSome_iff_exists.mp hsome with ⟨v, hv⟩
  rcases Option.ne_none_iff_exists'.mp (hbelow v (List.mem_of_find?_eq_some hv)) with
    ⟨parent, hparent⟩
  refine ⟨v, parent, ?_, hparent⟩
  rw [hvisits, List.find?_append, hv, Option.some_or]

theorem exists_group (options : ScanOptions) (h : 2 ≤ (names root).count name) :
    ∃ first rest, (scan options root).records.filter (·.name = name) = first :: rest ∧
      rest ≠ [] ∧ ∀ r ∈ rest, first.name = r.name := by
  rw [← length_group options] at h
  rcases List.exists_cons_of_length_pos (Nat.zero_lt_of_lt h) with ⟨first, rest, hgroup⟩
  rw [hgroup, List.length_cons] at h
  have hname : ∀ r ∈ first :: rest, r.name = name := by
    intro r hr
    rw [← hgroup] at hr
    exact of_decide_eq_true (List.mem_filter.mp hr).2
  refine ⟨first, rest, hgroup, List.ne_nil_of_length_pos (Nat.le_of_succ_le_succ h), ?_⟩
  intro r hr
  rw [hname first List.mem_cons_self, hname r (List.mem_cons_of_mem first hr)]

end Groups

/-!
# Patterns of a tree
-/

/-- The pattern of a name that is counted more than once: what it is called, below what the first
element of the name lies, and how alike the records of the name are. -/
structure Repeats (options : ScanOptions) (root : Element) (counted : String) (p : Pattern) :
    Prop where
  name : p.name = counted ++ "_pattern"
  elements : p.elements = [counted]
  repeating : p.repeating = true
  context : ∃ v parent, (visits [] root).find? (·.element.name = counted) = some v ∧
    v.parent = some parent ∧ p.context = some parent
  /-- What is computed with doubles is a score if it is computed exactly. -/
  similarity : ∃ first rest,
    (scan options root).records.filter (·.name = counted) = first :: rest ∧
      p.similarity = uniformityIn Float.ofNat (first :: rest) ∧
      IsScore first rest ((names root).count counted)
        (uniformityIn (Nat.cast : Nat → ℚ) (first :: rest))

theorem exists_repeats (options : ScanOptions) {root : Element} {name : String}
    (h : 2 ≤ (names root).count name) :
    ∃ p, patternOf? (scan options root).records name = some p ∧ Repeats options root name p := by
  have hfind : Option.Rel (Describes options.truthValues)
      ((visits [] root).find? (·.element.name = name))
      ((scan options root).records.find? (·.name = name)) :=
    find?_of_forall₂ (fun v r h => by rw [h.name]) (describes_scan options root)
  rcases exists_first_visit h with ⟨v, parent, hv, hparent⟩
  rcases exists_group options h with ⟨first, rest, hgroup, hne, hnames⟩
  have hlength : (first :: rest).length = (names root).count name := by
    rw [← hgroup, length_group]
  rw [hv, ← List.head?_filter, hgroup, List.head?_cons] at hfind
  rw [patternOf?, hgroup]
  cases hfind with
  | some hdescribes =>
      refine ⟨_, rfl, rfl, rfl, rfl, ⟨v, parent, hv, hparent, ?_⟩, first, rest, hgroup, rfl,
        isScore_uniformityIn hlength hne hnames⟩
      exact hdescribes.parent.trans hparent

def repeatedNames (m : Model) : List String :=
  (m.frequency.toList.filter (1 < ·.2)).map Prod.fst

theorem sorted_repeatedNames (m : Model) : (repeatedNames m).Pairwise (· < ·) :=
  m.frequency.sorted.sublist (List.filter_sublist.map Prod.fst)

theorem mem_repeatedNames {options : ScanOptions} {root : Element} {name : String} :
    name ∈ repeatedNames (scan options root) ↔ 2 ≤ (names root).count name := by
  have htallies : ∀ name, (scan options root).frequency.get? name =
      if (names root).count name = 0 then none else some ((names root).count name) := by
    rw [frequency_scan]
    exact tallies_tally (names root)
  simp only [repeatedNames, List.mem_map, List.mem_filter, decide_eq_true_eq]
  constructor
  · rintro ⟨⟨key, count⟩, ⟨hentry, hcount⟩, rfl⟩
    have hkey := htallies key
    rw [NameMap.mem_entries.mp hentry] at hkey
    split at hkey
    · cases hkey
    · rw [← Option.some_inj.mp hkey]
      exact hcount
  · intro htwo
    have hname := htallies name
    rw [if_neg (by omega)] at hname
    exact ⟨_, ⟨NameMap.mem_entries.mpr hname, htwo⟩, rfl⟩

theorem forall₂_filterMap {α β γ : Type} {agree : γ → β → Prop} {f : α → Option β} {g : α → γ}
    {xs : List α} (h : ∀ x ∈ xs, ∃ y, f x = some y ∧ agree (g x) y) :
    List.Forall₂ agree (xs.map g) (xs.filterMap f) := by
  induction xs with
  | nil =>
      exact List.Forall₂.nil
  | cons x xs ih =>
      rcases h x List.mem_cons_self with ⟨y, hy, hagree⟩
      rw [List.map_cons, List.filterMap_cons_some hy]
      exact List.Forall₂.cons hagree (ih fun x' hx' => h x' (List.mem_cons_of_mem x hx'))

theorem forall₂_repeats (options : ScanOptions) (root : Element) :
    List.Forall₂ (Repeats options root) (repeatedNames (scan options root))
      (scan options root).patterns := by
  apply forall₂_filterMap
  intro entry hentry
  exact exists_repeats options (mem_repeatedNames.mp (List.mem_map_of_mem hentry))

theorem isSome_pattern?_iff {options : ScanOptions} {root : Element} {name : String} :
    ((scan options root).pattern? name).isSome = true ↔
      1 < (scan options root).frequencyOf name := by
  have helements : (scan options root).patterns.map (·.elements) =
      (repeatedNames (scan options root)).map ([·]) :=
    map_eq_of_forall₂ (fun counted p h => h.elements) (forall₂_repeats options root)
  have hmem : (∃ p ∈ (scan options root).patterns, p.elements.contains name = true) ↔
      ∃ named ∈ (repeatedNames (scan options root)).map ([·]), named.contains name = true := by
    rw [← helements]
    simp
  have hname : name ∈ repeatedNames (scan options root) ↔ 2 ≤ (names root).count name :=
    mem_repeatedNames
  rw [Model.pattern?, List.find?_isSome, hmem, frequencyOf_scan, ← Nat.succ_le_iff, ← hname]
  simp

/-- A tree has one pattern for each name that is there more than once, in ascending order of the
names, and a pattern is found just for these. -/
theorem patterns_scan_repeated (config : Config) (root : Element) :
    (repeatedNames (scan config.scanning root)).Pairwise (· < ·) ∧
      (∀ name, name ∈ repeatedNames (scan config.scanning root) ↔
        2 ≤ (names root).count name) ∧
      List.Forall₂ (Repeats config.scanning root) (repeatedNames (scan config.scanning root))
        (scan config.scanning root).patterns ∧
      ∀ name, ((scan config.scanning root).pattern? name).isSome = true ↔
        1 < (scan config.scanning root).frequencyOf name :=
  ⟨sorted_repeatedNames _, fun _ => mem_repeatedNames, forall₂_repeats config.scanning root,
    fun _ => isSome_pattern?_iff⟩

end Schema
end XmlShape
