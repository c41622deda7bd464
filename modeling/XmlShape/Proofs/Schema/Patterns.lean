import Mathlib.Data.List.Basic
import XmlShape.Schema.Similarity

/-!
# Patterns

The patterns of a model are worked out name by name: a name that is counted more than once has a
pattern if it has a record, and the pattern is read off the records of that name.
-/

namespace XmlShape
namespace Schema

def patternOf? (records : List Record) (name : String) : Option Pattern :=
  match records.filter (·.name = name) with
  | [] => none
  | first :: rest =>
    some {
      name := name ++ "_pattern"
      elements := [name]
      similarity := uniformity (first :: rest)
      context := first.parent
      repeating := true }

theorem repeatingPatterns_eq (records : List Record) (frequency : NameMap Nat) :
    repeatingPatterns records frequency =
      (frequency.toList.filter (1 < ·.2)).filterMap fun entry => patternOf? records entry.1 :=
  rfl

theorem patternOf?_eq (records : List Record) (name : String) :
    patternOf? records name = (records.filter (·.name = name)).head?.map fun first => {
      name := name ++ "_pattern"
      elements := [name]
      similarity := uniformity (records.filter (·.name = name))
      context := first.parent
      repeating := true } := by
  unfold patternOf?
  cases records.filter (·.name = name) <;> rfl

theorem map_repeatingPatterns {α : Type} {f g : Pattern → α} {records records' : List Record}
    (h : ∀ name, (patternOf? records name).map f = (patternOf? records' name).map g)
    (frequency : NameMap Nat) :
    (repeatingPatterns records frequency).map f = (repeatingPatterns records' frequency).map g := by
  rw [repeatingPatterns_eq, repeatingPatterns_eq, List.map_filterMap, List.map_filterMap]
  simp only [h]

theorem map_name_patternOf? (records : List Record) (name : String) :
    (patternOf? records name).map (·.name) =
      if ∃ r ∈ records, r.name = name then some (name ++ "_pattern") else none := by
  unfold patternOf?
  cases hnamed : records.filter (·.name = name) with
  | nil =>
      have hnone : ¬ ∃ r ∈ records, r.name = name := by
        simpa [List.filter_eq_nil_iff] using hnamed
      rw [if_neg hnone]
      rfl
  | cons first rest =>
      have hfirst : first ∈ records.filter (·.name = name) := by
        rw [hnamed]
        exact List.mem_cons_self
      rw [List.mem_filter] at hfirst
      rw [if_pos ⟨first, hfirst.1, of_decide_eq_true hfirst.2⟩]
      rfl

end Schema
end XmlShape
