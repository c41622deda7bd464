import XmlShape.Proofs.Regex.Search

/-!
# Leftmost matches

A text is searched from the left. The search stops at the first position where a match begins, and
fails only if there is no such position.
-/

namespace XmlShape
namespace Regex

def cursorAt (front back : List Char) : Cursor where
  before := front.getLast?
  rest := back

def foundAt (front back : List Char) (t : Cursor) : Found where
  before := front
  matched := back.take (back.length - t.rest.length)
  after := t.rest
  captures := t.captures

theorem exists_head?_ends {p : Pattern} {s : Cursor} (h : ∃ t, Leads p s t) :
    ∃ t others, ends p s = t :: others ∧ Leads p s t := by
  obtain ⟨t, ht⟩ := h
  obtain ⟨u, hu, _⟩ := (finds_ends p s).complete t ht
  cases hends : ends p s with
  | nil =>
      rw [hends] at hu
      cases hu
  | cons first others =>
      refine ⟨first, others, rfl, (finds_ends p s).sound first ?_⟩
      rw [hends]
      exact List.mem_cons_self

theorem ends_eq_nil {p : Pattern} {s : Cursor} (h : ¬∃ t, Leads p s t) : ends p s = [] := by
  rw [List.eq_nil_iff_forall_not_mem]
  intro t ht
  exact h ⟨t, (finds_ends p s).sound t ht⟩

/-- Where the search stands after a part of the text, which it keeps newest first. -/
theorem findFrom_of_leads {p : Pattern} {passed : List Char} (text : List Char)
    (h : ∃ t, Leads p (cursorAt passed.reverse text) t) :
    ∃ t, findFrom p passed text = some (foundAt passed.reverse text t) ∧
      Leads p (cursorAt passed.reverse text) t := by
  obtain ⟨t, others, hends, ht⟩ := exists_head?_ends h
  refine ⟨t, ?_, ht⟩
  rw [cursorAt, List.getLast?_reverse] at hends
  cases text with
  | nil =>
      simp only [findFrom, hends, foundAt, List.take_nil]
  | cons c cs =>
      simp only [findFrom, hends, foundAt]

theorem findFrom_nil_of_not_leads {p : Pattern} {passed : List Char}
    (h : ¬∃ t, Leads p (cursorAt passed.reverse []) t) : findFrom p passed [] = none := by
  have hends := ends_eq_nil h
  rw [cursorAt, List.getLast?_reverse] at hends
  simp only [findFrom, hends]

theorem findFrom_cons_of_not_leads {p : Pattern} {passed : List Char} {c : Char} {cs : List Char}
    (h : ¬∃ t, Leads p (cursorAt passed.reverse (c :: cs)) t) :
    findFrom p passed (c :: cs) = findFrom p (c :: passed) cs := by
  have hends := ends_eq_nil h
  rw [cursorAt, List.getLast?_reverse] at hends
  simp only [findFrom, hends]

def NoMatchBefore (p : Pattern) (text : List Char) (length : Nat) : Prop :=
  ∀ front back, text = front ++ back → front.length < length →
    ¬∃ t, Leads p (cursorAt front back) t

def IsLeftmost (p : Pattern) (text : List Char) (found : Found) : Prop :=
  ∃ front back t, text = front ++ back ∧ Leads p (cursorAt front back) t ∧
    found = foundAt front back t ∧ NoMatchBefore p text front.length

theorem NoMatchBefore.next {p : Pattern} {front back : List Char}
    (h : NoMatchBefore p (front ++ back) front.length)
    (hhere : ¬∃ t, Leads p (cursorAt front back) t) :
    NoMatchBefore p (front ++ back) (front.length + 1) := by
  intro front' back' htext hlt
  by_cases hlength : front'.length = front.length
  · obtain ⟨hfront, hback⟩ := List.append_inj htext hlength.symm
    rw [← hfront, ← hback]
    exact hhere
  · exact h front' back' htext (by omega)

structure Searched (p : Pattern) (text : List Char) (result : Option Found) : Prop where
  leftmost : ∀ found, result = some found → IsLeftmost p text found
  fails : result = none → NoMatchBefore p text (text.length + 1)

theorem searched_here {p : Pattern} {passed text : List Char}
    (h : NoMatchBefore p (passed.reverse ++ text) passed.reverse.length)
    (hhere : ∃ t, Leads p (cursorAt passed.reverse text) t) :
    Searched p (passed.reverse ++ text) (findFrom p passed text) := by
  obtain ⟨t, hfind, ht⟩ := findFrom_of_leads text hhere
  rw [hfind]
  constructor
  · intro found hfound
    cases hfound
    exact ⟨passed.reverse, text, t, rfl, ht, rfl, h⟩
  · intro hnone
    cases hnone

theorem searched_findFrom {p : Pattern} (passed text : List Char)
    (h : NoMatchBefore p (passed.reverse ++ text) passed.reverse.length) :
    Searched p (passed.reverse ++ text) (findFrom p passed text) := by
  induction text generalizing passed with
  | nil =>
      by_cases hhere : ∃ t, Leads p (cursorAt passed.reverse []) t
      · exact searched_here h hhere
      · rw [findFrom_nil_of_not_leads hhere]
        constructor
        · intro found hfound
          cases hfound
        · intro _
          have hnext := h.next hhere
          rwa [List.append_nil] at hnext ⊢
  | cons c cs ih =>
      by_cases hhere : ∃ t, Leads p (cursorAt passed.reverse (c :: cs)) t
      · exact searched_here h hhere
      · have hnext := h.next hhere
        have hstep : passed.reverse ++ c :: cs = (c :: passed).reverse ++ cs := by
          rw [List.reverse_cons, List.append_assoc, List.singleton_append]
        have hlength : passed.reverse.length + 1 = (c :: passed).reverse.length := by
          rw [List.reverse_cons, List.length_append, List.length_singleton]
        rw [findFrom_cons_of_not_leads hhere, hstep]
        rw [hstep, hlength] at hnext
        exact ih (c :: passed) hnext

theorem searched_find? (p : Pattern) (text : List Char) : Searched p text (find? p text) :=
  searched_findFrom [] text fun _ _ _ hlt => absurd hlt (Nat.not_lt_zero _)

theorem find?_eq_none_iff {p : Pattern} {text : List Char} :
    find? p text = none ↔
      ∀ front back, text = front ++ back → ¬∃ t, Leads p (cursorAt front back) t := by
  constructor
  · intro h front back htext
    apply (searched_find? p text).fails h front back htext
    rw [htext, List.length_append]
    omega
  · intro h
    cases hfind : find? p text with
    | none =>
        rfl
    | some found =>
        obtain ⟨front, back, t, htext, ht, _⟩ := (searched_find? p text).leftmost found hfind
        exact absurd ⟨t, ht⟩ (h front back htext)

end Regex
end XmlShape
