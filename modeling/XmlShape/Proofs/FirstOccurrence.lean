import Mathlib.Data.List.Dedup

/-!
# First occurrences

Of a list in which items recur, the first occurrence of each is kept. It makes no difference to a
list that is put together from parts whether this is done in the parts as well.
-/

namespace XmlShape

section FirstOccurrence

variable {α : Type} [BEq α]

theorem head?_eraseDups (items : List α) : items.eraseDups.head? = items.head? := by
  cases items with
  | nil =>
      rfl
  | cons item items =>
      rw [List.eraseDups_cons]
      rfl

variable [LawfulBEq α]

theorem nodup_eraseDups (items : List α) : items.eraseDups.Nodup := by
  cases items with
  | nil =>
      exact List.nodup_nil
  | cons item items =>
      rw [List.eraseDups_cons, List.nodup_cons]
      constructor
      · simp [List.mem_eraseDups]
      · exact nodup_eraseDups _
termination_by items.length
decreasing_by
  exact Nat.lt_add_one_of_le (List.length_filter_le _ _)

theorem eraseDups_filter (keep : α → Bool) (items : List α) :
    (items.filter keep).eraseDups = items.eraseDups.filter keep := by
  cases items with
  | nil =>
      rfl
  | cons item items =>
      have ih := eraseDups_filter keep (items.filter fun other => !other == item)
      rw [List.eraseDups_cons]
      cases hkeep : keep item with
      | true =>
          rw [List.filter_cons_of_pos hkeep, List.filter_cons_of_pos hkeep, List.eraseDups_cons,
            ← ih, List.filter_filter, List.filter_filter]
          simp only [Bool.and_comm]
      | false =>
          have hdropped : (items.filter fun other => !other == item).filter keep =
              items.filter keep := by
            rw [List.filter_filter]
            apply List.filter_congr
            intro other _
            by_cases hother : other = item <;> simp [hother, hkeep]
          rw [List.filter_cons_of_neg (by simp [hkeep]),
            List.filter_cons_of_neg (by simp [hkeep]), ← ih, hdropped]
termination_by items.length
decreasing_by
  exact Nat.lt_add_one_of_le (List.length_filter_le _ _)

theorem eraseDups_of_nodup {items : List α} (h : items.Nodup) : items.eraseDups = items := by
  induction items with
  | nil =>
      rfl
  | cons item items ih =>
      obtain ⟨hnew, hnodup⟩ := List.nodup_cons.mp h
      have hkept : (items.filter fun other => !other == item) = items := by
        rw [List.filter_eq_self]
        intro other hother
        simpa using ne_of_mem_of_not_mem hother hnew
      rw [List.eraseDups_cons, hkept, ih hnodup]

theorem eraseDups_eraseDups (items : List α) : items.eraseDups.eraseDups = items.eraseDups :=
  eraseDups_of_nodup (nodup_eraseDups items)

theorem eraseDups_append_congr {front front' back back' : List α}
    (hfront : front.eraseDups = front'.eraseDups) (hback : back.eraseDups = back'.eraseDups) :
    (front ++ back).eraseDups = (front' ++ back').eraseDups := by
  have hcontains : ∀ item, front.contains item = front'.contains item := by
    intro item
    rw [Bool.eq_iff_iff, List.contains_iff_mem, List.contains_iff_mem, ← List.mem_eraseDups,
      hfront, List.mem_eraseDups]
  rw [List.eraseDups_append, List.eraseDups_append, List.removeAll, List.removeAll,
    eraseDups_filter, eraseDups_filter, hfront, hback]
  congr 1
  apply List.filter_congr
  intro item _
  simpa using congrArg not (hcontains item)

theorem eraseDups_flatMap_congr {β : Type} {f g : β → List α} {parts : List β}
    (h : ∀ part ∈ parts, (f part).eraseDups = (g part).eraseDups) :
    (parts.flatMap f).eraseDups = (parts.flatMap g).eraseDups := by
  induction parts with
  | nil =>
      rfl
  | cons part parts ih =>
      rw [List.flatMap_cons, List.flatMap_cons]
      apply eraseDups_append_congr
      · exact h part List.mem_cons_self
      · apply ih
        intro other hother
        exact h other (List.mem_cons_of_mem part hother)

end FirstOccurrence
end XmlShape
