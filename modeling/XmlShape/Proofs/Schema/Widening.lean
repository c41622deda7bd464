import XmlShape.Schema.Fields

/-!
# Widening lists of types

Types are widened one after the other. The result does not depend on their order: it is read off
which types occur at all.
-/

namespace XmlShape
namespace Schema

open ElementType

/-- The type that holds all types of a list which is not empty: composite if one of them is, their
common type if they agree, a double if they are numbers, and else text. -/
def widest (types : List ElementType) : ElementType :=
  if .composite ∈ types then .composite
  else if ∀ type ∈ types, type = types.headD .string then types.headD .string
  else if ∀ type ∈ types, type = .integer ∨ type = .double then .double
  else .string

theorem widest_singleton (type : ElementType) : widest [type] = type := by
  cases type <;> rfl

theorem if_doubles (types : List ElementType) :
    (if ∀ type ∈ types, type = .double then .double
      else if ∀ type ∈ types, type = .integer ∨ type = .double then .double
      else .string) =
      if ∀ type ∈ types, type = .integer ∨ type = .double then ElementType.double else .string := by
  by_cases hdoubles : ∀ type ∈ types, type = .double
  · have hnumbers : ∀ type ∈ types, type = .integer ∨ type = .double := by
      intro type htype
      exact Or.inr (hdoubles type htype)
    rw [if_pos hdoubles, if_pos hnumbers]
  · rw [if_neg hdoubles]

theorem widest_cons_cons (a b : ElementType) (types : List ElementType) :
    widest (a :: b :: types) = widest (a.widen b :: types) := by
  cases a <;> cases b <;> simp [widest, widen, if_doubles]

theorem foldl_widen (type : ElementType) (types : List ElementType) :
    types.foldl widen type = widest (type :: types) := by
  induction types generalizing type with
  | nil =>
      exact (widest_singleton type).symm
  | cons next types ih =>
      rw [List.foldl_cons, ih, widest_cons_cons]

theorem widenAll?_eq_widest (types : List ElementType) :
    widenAll? types = if types = [] then none else some (widest types) := by
  cases types with
  | nil =>
      rfl
  | cons type types =>
      rw [widenAll?, foldl_widen]
      rfl

theorem widenAll?_eq_none {types : List ElementType} : widenAll? types = none ↔ types = [] := by
  rw [widenAll?_eq_widest]
  by_cases h : types = [] <;> simp [h]

instance : Std.Associative widen :=
  ⟨widen_assoc⟩

theorem widenAll?_append (types types' : List ElementType) :
    widenAll? (types ++ types') = Option.merge widen (widenAll? types) (widenAll? types') := by
  cases types with
  | nil =>
      rw [List.nil_append, widenAll?, Option.merge_none_left]
  | cons a types =>
      cases types' with
      | nil =>
          rw [List.append_nil, widenAll?, widenAll?, Option.merge_none_right]
      | cons b types' =>
          rw [List.cons_append, widenAll?, widenAll?, widenAll?, List.foldl_append,
            List.foldl_cons, List.foldl_assoc]
          rfl

theorem widest_append {types types' : List ElementType} (h : types ≠ []) (h' : types' ≠ []) :
    widest (types ++ types') = (widest types).widen (widest types') := by
  have happend := widenAll?_append types types'
  rw [widenAll?_eq_widest, widenAll?_eq_widest, widenAll?_eq_widest, if_neg h, if_neg h',
    if_neg (List.append_ne_nil_of_left_ne_nil h types')] at happend
  exact Option.some_inj.mp happend

theorem widenAll?_perm {types types' : List ElementType} (h : types.Perm types') :
    widenAll? types = widenAll? types' := by
  induction h with
  | nil =>
      rfl
  | cons type _ ih =>
      have hcons : ∀ rest, widenAll? (type :: rest) =
          Option.merge widen (some type) (widenAll? rest) := by
        intro rest
        exact widenAll?_append [type] rest
      rw [hcons, hcons, ih]
  | swap a b types =>
      rw [widenAll?, widenAll?, List.foldl_cons, List.foldl_cons, widen_comm]
  | trans _ _ ih ih' =>
      exact ih.trans ih'

theorem widest_perm {types types' : List ElementType} (h : types.Perm types') :
    widest types = widest types' := by
  have hwiden := widenAll?_perm h
  rw [widenAll?_eq_widest, widenAll?_eq_widest] at hwiden
  by_cases hnil : types = []
  · subst hnil
    rw [List.nil_perm.mp h]
  · have hnil' : types' ≠ [] := by
      rintro rfl
      exact hnil (List.perm_nil.mp h)
    rw [if_neg hnil, if_neg hnil'] at hwiden
    exact Option.some_inj.mp hwiden

theorem widest_replicate (type : ElementType) (n : Nat) :
    widest (List.replicate (n + 1) type) = type := by
  induction n with
  | zero =>
      exact widest_singleton type
  | succ n ih =>
      rw [List.replicate_succ, List.replicate_succ, widest_cons_cons, widen_self,
        ← List.replicate_succ, ih]

end Schema
end XmlShape
