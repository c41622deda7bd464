import XmlShape.Proofs.Schema.Visit

/-!
# Depth

The depth of a tree is found by a walk that keeps the elements it still has to visit. It is the
height of the tree, which some place reaches.
-/

namespace XmlShape
namespace Element

mutual

def height : Element → Nat
  | ⟨_, _, children, _⟩ => 1 + heightAll children

def heightAll : List Element → Nat
  | [] => 0
  | e :: es => max e.height (heightAll es)

end

theorem height_eq (e : Element) : e.height = 1 + heightAll e.children := by
  cases e
  rfl

theorem heightAll_append (es fs : List Element) :
    heightAll (es ++ fs) = max (heightAll es) (heightAll fs) := by
  induction es with
  | nil =>
      exact (Nat.zero_max _).symm
  | cons e es ih =>
      rw [List.cons_append, heightAll, heightAll, ih, Nat.max_assoc]

theorem heightAll_reverse (es : List Element) : heightAll es.reverse = heightAll es := by
  induction es with
  | nil =>
      rfl
  | cons e es ih =>
      rw [List.reverse_cons, heightAll_append, ih, Nat.max_comm]
      simp [heightAll]

/-- The greatest level in trees whose roots have the given levels. -/
def bottom : List (Element × Nat) → Nat
  | [] => 0
  | (e, level) :: pending => max (level + heightAll e.children) (bottom pending)

theorem bottom_append (pending pending' : List (Element × Nat)) :
    bottom (pending ++ pending') = max (bottom pending) (bottom pending') := by
  induction pending with
  | nil =>
      exact (Nat.zero_max _).symm
  | cons entry pending ih =>
      rw [List.cons_append, bottom, bottom, ih, Nat.max_assoc]

theorem bottom_reverse (pending : List (Element × Nat)) :
    bottom pending.reverse = bottom pending := by
  induction pending with
  | nil =>
      rfl
  | cons entry pending ih =>
      rw [List.reverse_cons, bottom_append, ih, Nat.max_comm]
      simp [bottom]

theorem bottom_children (level : Nat) (children : List Element) :
    max level (bottom (children.map (·, level + 1))) = level + heightAll children := by
  induction children with
  | nil =>
      simp [bottom, heightAll]
  | cons e es ih =>
      rw [List.map_cons, bottom, heightAll, height_eq]
      omega

theorem deepestOf_eq (deepest : Nat) (pending : List (Element × Nat)) :
    deepestOf deepest pending = max deepest (bottom pending) := by
  induction deepest, pending using deepestOf.induct with
  | case1 deepest =>
      rw [deepestOf, bottom, Nat.max_zero]
  | case2 deepest e level pending ih =>
      have hchildren := bottom_children level e.children
      rw [List.attach_map_val (f := (·, level + 1))] at ih
      rw [deepestOf, ih, bottom, bottom_append, bottom_reverse]
      omega

theorem depth_eq_height (e : Element) : e.depth = e.height := by
  rw [depth, deepestOf_eq, bottom, bottom, Nat.zero_max, Nat.max_zero, height_eq]

end Element

namespace Schema

open Element

mutual

theorem exists_deepest (ancestors : List String) : (e : Element) →
    ∃ v ∈ visits ancestors e, v.level + 1 = ancestors.length + e.height
  | ⟨name, attributes, children, text⟩ => by
      by_cases hnil : children = []
      · subst hnil
        exact ⟨_, root_mem_visits ancestors _, rfl⟩
      · obtain ⟨v, hv, hlevel⟩ := exists_deepestAll (name :: ancestors) children hnil
        refine ⟨v, ?_, ?_⟩
        · rw [visits]
          exact List.mem_append_left _ hv
        · rw [hlevel, height_eq, List.length_cons, Nat.add_assoc]

theorem exists_deepestAll (ancestors : List String) : (es : List Element) → es ≠ [] →
    ∃ v ∈ visitsAll ancestors es, v.level + 1 = ancestors.length + heightAll es
  | [], h => absurd rfl h
  | e :: es, _ => by
      rw [visitsAll, heightAll]
      by_cases hle : heightAll es ≤ e.height
      · obtain ⟨v, hv, hlevel⟩ := exists_deepest ancestors e
        rw [Nat.max_eq_left hle]
        exact ⟨v, List.mem_append_left _ hv, hlevel⟩
      · have hne : es ≠ [] := by
          rintro rfl
          exact hle (Nat.zero_le _)
        obtain ⟨v, hv, hlevel⟩ := exists_deepestAll ancestors es hne
        rw [Nat.max_eq_right (Nat.le_of_not_le hle)]
        exact ⟨v, List.mem_append_right _ hv, hlevel⟩

end

mutual

theorem level_lt_height (ancestors : List String) : (e : Element) →
    ∀ v ∈ visits ancestors e, v.level < ancestors.length + e.height
  | ⟨name, attributes, children, text⟩ => by
      intro v hv
      rw [visits, List.mem_append, List.mem_singleton] at hv
      rw [height_eq, ← Nat.add_assoc]
      rcases hv with hv | rfl
      · exact level_lt_heightAll (name :: ancestors) children v hv
      · exact Nat.lt_of_lt_of_le (Nat.lt_succ_self _) (Nat.le_add_right _ _)

theorem level_lt_heightAll (ancestors : List String) : (es : List Element) →
    ∀ v ∈ visitsAll ancestors es, v.level < ancestors.length + heightAll es
  | [] => by
      intro v hv
      cases hv
  | e :: es => by
      intro v hv
      rw [visitsAll, List.mem_append] at hv
      rw [heightAll]
      rcases hv with hv | hv
      · have hlt := level_lt_height ancestors e v hv
        omega
      · have hlt := level_lt_heightAll ancestors es v hv
        omega

end

theorem level_lt_depth {root : Element} {v : Visit} (hv : v ∈ visits [] root) :
    v.level < root.depth := by
  have hlt := level_lt_height [] root v hv
  rwa [List.length_nil, Nat.zero_add, ← depth_eq_height] at hlt

/-- The path to the element that lies deepest is as long as the tree is deep. -/
theorem exists_visit_depth (root : Element) :
    ∃ v ∈ visits [] root, v.path.length = root.depth := by
  obtain ⟨v, hv, hlevel⟩ := exists_deepest [] root
  refine ⟨v, hv, ?_⟩
  rw [depth_eq_height, Visit.path, List.length_cons, ← Visit.level, hlevel, List.length_nil,
    Nat.zero_add]

end Schema
end XmlShape
