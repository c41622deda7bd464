import Mathlib.Order.Bounds.Basic
import XmlShape.Analysis
import XmlShape.Proofs.Schema.Statistics

/-!
# Scans within a depth limit

A tree is measured before it is scanned. The walk that measures it keeps a pile of elements, of
which each turn takes one and puts its children; it ends when every element has been taken. What it
finds is the length of the longest way down the tree, and the scan records the same depth.
-/

namespace XmlShape
namespace Element

/-!
# Turns of the walk
-/

structure Measuring where
  deepest : Nat
  pending : List (Element × Nat)

namespace Measuring

def start (root : Element) : Measuring where
  deepest := 0
  pending := [(root, 1)]

def turn : Measuring → Measuring
  | ⟨deepest, []⟩ => ⟨deepest, []⟩
  | ⟨deepest, (e, level) :: pending⟩ =>
      ⟨max deepest level, (e.children.map (·, level + 1)).reverse ++ pending⟩

def left (s : Measuring) : Nat :=
  countAll (s.pending.map Prod.fst)

theorem left_start (root : Element) : (start root).left = root.count :=
  Nat.add_zero _

theorem left_cons (deepest : Nat) (e : Element) (level : Nat) (pending : List (Element × Nat)) :
    left ⟨deepest, (e, level) :: pending⟩ =
      1 + countAll e.children + countAll (pending.map Prod.fst) := by
  rw [← count_eq]
  rfl

theorem left_eq_zero_iff (s : Measuring) : s.left = 0 ↔ s.pending = [] := by
  obtain ⟨deepest, pending⟩ := s
  cases pending with
  | nil =>
      exact iff_of_true rfl rfl
  | cons entry pending =>
      constructor
      · intro hleft
        rw [left_cons] at hleft
        omega
      · intro hnil
        cases hnil

theorem left_turn (s : Measuring) : s.turn.left = s.left - 1 := by
  obtain ⟨deepest, pending⟩ := s
  cases pending with
  | nil =>
      rfl
  | cons entry pending =>
      obtain ⟨e, level⟩ := entry
      have hchildren : (e.children.map (·, level + 1)).map Prod.fst = e.children := by
        rw [List.map_map]
        exact List.map_id _
      rw [left_cons, turn, left, List.map_append, List.map_reverse, hchildren, countAll_append,
        countAll_reverse]
      omega

theorem deepestOf_turn (s : Measuring) :
    deepestOf s.turn.deepest s.turn.pending = deepestOf s.deepest s.pending := by
  obtain ⟨deepest, pending⟩ := s
  cases pending with
  | nil =>
      rfl
  | cons entry pending =>
      exact (deepestOf.eq_2 deepest entry.1 entry.2 pending).symm

/-- Every turn takes one element for good, also those turns that find nothing to take. -/
theorem left_iterate_turn (n : Nat) (s : Measuring) : (turn^[n] s).left = s.left - n := by
  induction n generalizing s with
  | zero =>
      rfl
  | succ n ih =>
      rw [Function.iterate_succ_apply, ih, left_turn]
      omega

theorem deepestOf_iterate_turn (n : Nat) (s : Measuring) :
    deepestOf (turn^[n] s).deepest (turn^[n] s).pending = deepestOf s.deepest s.pending := by
  induction n generalizing s with
  | zero =>
      rfl
  | succ n ih =>
      rw [Function.iterate_succ_apply, ih, deepestOf_turn]

theorem ends_iff (root : Element) (n : Nat) :
    (turn^[n] (start root)).pending = [] ↔ root.count ≤ n := by
  rw [← left_eq_zero_iff, left_iterate_turn, left_start]
  exact Nat.sub_eq_zero_iff_le

theorem deepest_of_ended {root : Element} {n : Nat}
    (hended : (turn^[n] (start root)).pending = []) :
    (turn^[n] (start root)).deepest = root.depth := by
  have hdeepest := deepestOf_iterate_turn n (start root)
  rw [hended, deepestOf] at hdeepest
  exact hdeepest

end Measuring

/-!
# Ways down a tree
-/

inductive LeafPath : Element → List Element → Prop where
  | leaf {e : Element} (hnone : e.children = []) : LeafPath e [e]
  | down {e child : Element} {path : List Element} (hchild : child ∈ e.children)
      (hpath : LeafPath child path) : LeafPath e (e :: path)

theorem height_le_heightAll {e : Element} {es : List Element} (he : e ∈ es) :
    e.height ≤ heightAll es := by
  induction es with
  | nil =>
      cases he
  | cons first es ih =>
      rw [heightAll]
      cases he with
      | head =>
          exact Nat.le_max_left _ _
      | tail _ hmem =>
          exact Nat.le_trans (ih hmem) (Nat.le_max_right _ _)

theorem LeafPath.length_le_height {e : Element} {path : List Element} (h : LeafPath e path) :
    path.length ≤ e.height := by
  induction h with
  | leaf hnone =>
      rw [height_eq, List.length_singleton]
      exact Nat.le_add_right 1 _
  | down hchild _ ih =>
      have hheight := height_le_heightAll hchild
      rw [height_eq, List.length_cons]
      omega

mutual

theorem exists_leafPath : (e : Element) → ∃ path, LeafPath e path ∧ path.length = e.height
  | ⟨name, attributes, children, text⟩ => by
      by_cases hnil : children = []
      · subst hnil
        exact ⟨_, .leaf rfl, rfl⟩
      · obtain ⟨child, hchild, path, hpath, hlength⟩ := exists_leafPathAll children hnil
        refine ⟨_, .down hchild hpath, ?_⟩
        rw [height_eq, List.length_cons, hlength, Nat.add_comm]

theorem exists_leafPathAll : (es : List Element) → es ≠ [] →
    ∃ child ∈ es, ∃ path, LeafPath child path ∧ path.length = heightAll es
  | [], h => absurd rfl h
  | e :: es, _ => by
      rw [heightAll]
      by_cases hle : heightAll es ≤ e.height
      · obtain ⟨path, hpath, hlength⟩ := exists_leafPath e
        rw [Nat.max_eq_left hle]
        exact ⟨e, List.mem_cons_self, path, hpath, hlength⟩
      · have hne : es ≠ [] := by
          rintro rfl
          exact hle (Nat.zero_le _)
        obtain ⟨child, hchild, path, hpath, hlength⟩ := exists_leafPathAll es hne
        rw [Nat.max_eq_right (Nat.le_of_not_le hle)]
        exact ⟨child, List.mem_cons_of_mem e hchild, path, hpath, hlength⟩

end

theorem isGreatest_length_leafPath (root : Element) :
    IsGreatest {n | ∃ path, LeafPath root path ∧ path.length = n} root.depth := by
  rw [depth_eq_height]
  constructor
  · exact exists_leafPath root
  · intro n hn
    obtain ⟨path, hpath, rfl⟩ := hn
    exact hpath.length_le_height

end Element

/-!
# Checked scans
-/

open Schema Element

theorem scanWithin_eq_ok_iff (config : Config) (root : Element) :
    scanWithin config root = .ok (scan config.scanning root) ↔ root.depth ≤ config.depthLimit := by
  unfold scanWithin
  split
  · next hdeep => simp [Nat.not_le.mpr hdeep]
  · next hdeep => simp [Nat.not_lt.mp hdeep]

theorem scanWithin_eq_error_iff (config : Config) (root : Element) :
    scanWithin config root = .error (.tooDeep root.depth config.depthLimit) ↔
      config.depthLimit < root.depth := by
  unfold scanWithin
  split
  · next hdeep => simp [hdeep]
  · next hdeep => simp [hdeep]

/-- The walk that measures a tree ends after as many turns as there are elements. The depth that it
finds is that of the longest way down and that of the scan, and decides whether the scan is made. -/
theorem scanWithin_measures (config : Config) (root : Element) :
    (∀ n, (Measuring.turn^[n] (.start root)).pending = [] ↔ root.count ≤ n) ∧
      (Measuring.turn^[root.count] (.start root)).deepest = root.depth ∧
      IsGreatest {n | ∃ path, LeafPath root path ∧ path.length = n} root.depth ∧
      IsGreatest {n | ∃ r ∈ (scan config.scanning root).records, r.depth + 1 = n} root.depth ∧
      (scan config.scanning root).maxDepth + 1 = root.depth ∧
      (scanWithin config root = .ok (scan config.scanning root) ↔
        root.depth ≤ config.depthLimit) ∧
      (scanWithin config root = .error (.tooDeep root.depth config.depthLimit) ↔
        config.depthLimit < root.depth) := by
  have hended : (Measuring.turn^[root.count] (.start root)).pending = [] :=
    (Measuring.ends_iff root root.count).mpr (Nat.le_refl _)
  constructor
  · exact Measuring.ends_iff root
  constructor
  · exact Measuring.deepest_of_ended hended
  constructor
  · exact isGreatest_length_leafPath root
  constructor
  · exact isGreatest_depth_scan config.scanning root
  constructor
  · exact maxDepth_scan config.scanning root
  constructor
  · exact scanWithin_eq_ok_iff config root
  · exact scanWithin_eq_error_iff config root

end XmlShape
