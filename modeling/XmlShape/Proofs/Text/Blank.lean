import Mathlib.Data.List.TakeWhile
import XmlShape.Text.Blank

/-!
# Trimmed text

Trimming takes a run of blanks off either end of a text. What it leaves begins and ends with
something else, and no other part of the text does so with nothing but blanks around it.
-/

namespace XmlShape
namespace Text

variable {p : Char → Bool}

theorem trim_append_takeWhile (p : Char → Bool) (cs : List Char) :
    trim p cs ++ ((trimStart p cs).reverse.takeWhile p).reverse = trimStart p cs := by
  rw [trim, trimEnd, ← List.reverse_append, List.takeWhile_append_dropWhile, List.reverse_reverse]

theorem exists_trim (p : Char → Bool) (cs : List Char) :
    ∃ before after, cs = before ++ trim p cs ++ after ∧ (∀ c ∈ before, p c = true) ∧
      ∀ c ∈ after, p c = true := by
  have hmem : ∀ ds : List Char, ∀ c ∈ ds.takeWhile p, p c = true := by
    intro ds c hc
    exact List.mem_takeWhile_imp hc
  refine ⟨cs.takeWhile p, ((trimStart p cs).reverse.takeWhile p).reverse, ?_, hmem cs, ?_⟩
  · rw [List.append_assoc, trim_append_takeWhile, trimStart, List.takeWhile_append_dropWhile]
  · intro c hc
    exact hmem _ c (List.mem_reverse.mp hc)

theorem trim_append_left {before : List Char} (h : ∀ c ∈ before, p c = true) (cs : List Char) :
    trim p (before ++ cs) = trim p cs := by
  rw [trim, trim, trimStart, trimStart, List.dropWhile_append_of_pos h]

theorem trim_append_right {after : List Char} (h : ∀ c ∈ after, p c = true) (cs : List Char) :
    trim p (cs ++ after) = trim p cs := by
  have hafter : after.dropWhile p = [] := List.dropWhile_eq_nil_iff.mpr h
  have hreverse : ∀ c ∈ after.reverse, p c = true := by
    intro c hc
    exact h c (List.mem_reverse.mp hc)
  rw [trim, trim, trimStart, trimStart, List.dropWhile_append, hafter]
  split
  · next hempty =>
    rw [List.isEmpty_iff.mp hempty]
  · rw [trimEnd, trimEnd, List.reverse_append, List.dropWhile_append_of_pos hreverse]

theorem trim_around {before after : List Char} (hbefore : ∀ c ∈ before, p c = true)
    (hafter : ∀ c ∈ after, p c = true) (cs : List Char) :
    trim p (before ++ cs ++ after) = trim p cs := by
  rw [trim_append_right hafter, trim_append_left hbefore]

theorem mem_of_mem_trim {cs : List Char} {c : Char} (h : c ∈ trim p cs) : c ∈ cs := by
  obtain ⟨before, after, hcs, _, _⟩ := exists_trim p cs
  rw [hcs]
  exact List.mem_append_left after (List.mem_append_right before h)

/-- A text within another that has blanks around it, but none at its own ends. -/
structure IsStripped (p : Char → Bool) (cs stripped : List Char) : Prop where
  around : ∃ before after, cs = before ++ stripped ++ after ∧ (∀ c ∈ before, p c = true) ∧
    ∀ c ∈ after, p c = true
  first : ∀ c ∈ stripped.head?, p c = false
  last : ∀ c ∈ stripped.getLast?, p c = false

theorem eq_false_of_mem_head?_dropWhile {cs : List Char} {c : Char}
    (h : c ∈ (cs.dropWhile p).head?) : p c = false := by
  have hnot := List.head?_dropWhile_not p cs
  rw [Option.mem_def.mp h] at hnot
  exact hnot

theorem isStripped_trim (p : Char → Bool) (cs : List Char) : IsStripped p cs (trim p cs) := by
  constructor
  · exact exists_trim p cs
  · intro c hc
    apply eq_false_of_mem_head?_dropWhile
    obtain ⟨rest, hrest⟩ := List.head?_eq_some_iff.mp hc
    show c ∈ (trimStart p cs).head?
    rw [← trim_append_takeWhile, hrest]
    rfl
  · intro c hc
    rw [trim, trimEnd, List.getLast?_reverse] at hc
    exact eq_false_of_mem_head?_dropWhile hc

theorem dropWhile_eq_self {cs : List Char} (h : ∀ c ∈ cs.head?, p c = false) :
    cs.dropWhile p = cs := by
  cases cs with
  | nil =>
      rfl
  | cons c cs =>
      exact List.dropWhile_cons_of_neg (by simp [h c rfl])

theorem isStripped_iff {cs stripped : List Char} :
    IsStripped p cs stripped ↔ stripped = trim p cs := by
  constructor
  · intro h
    obtain ⟨before, after, hcs, hbefore, hafter⟩ := h.around
    have hlast : ∀ c ∈ stripped.reverse.head?, p c = false := by
      rw [List.head?_reverse]
      exact h.last
    have hself : trim p stripped = stripped := by
      rw [trim, trimStart, trimEnd, dropWhile_eq_self h.first, dropWhile_eq_self hlast,
        List.reverse_reverse]
    rw [hcs, trim_around hbefore hafter, hself]
  · rintro rfl
    exact isStripped_trim p cs

end Text
end XmlShape
