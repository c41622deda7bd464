import XmlShape.Regex.Search

/-!
# Matches

A match of a pattern leads from one cursor to another. This is a relation, which says nothing about
the order in which a search tries things. It depends only on the place of the first cursor, not on
what the groups have matched before.
-/

namespace XmlShape
namespace Regex

def Times (R : Cursor → Cursor → Prop) : Nat → Cursor → Cursor → Prop
  | 0, s, t => t = s
  | n + 1, s, t => ∃ u, R s u ∧ Times R n u t

/-- A match of a pattern begins at the first cursor and ends at the second. A limit of repetitions
that is below their least number does not count. -/
def Leads : Pattern → Cursor → Cursor → Prop
  | .empty, s, t => t = s
  | .one set, s, t =>
      ∃ c rest, s.rest = c :: rest ∧ set.contains c = true ∧ t = { s with before := some c, rest }
  | .assertion a, s, t => a.holds s.before s.rest.head? = true ∧ t = s
  | .seq p q, s, t => ∃ u, Leads p s u ∧ Leads q u t
  | .either p q, s, t => Leads p s t ∨ Leads q s t
  | .repeated least most _ p, s, t =>
      ∃ n, least ≤ n ∧ (∀ m ∈ most, n ≤ max least m) ∧ Times (Leads p) n s t
  | .group index p, s, t => ∃ u, Leads p s u ∧ t = u.capture index s.rest

/-!
# Places

The place of a cursor is the cursor without what the groups have matched.
-/

structure SamePlace (s t : Cursor) : Prop where
  before : s.before = t.before
  rest : s.rest = t.rest

namespace SamePlace

variable {s t u : Cursor}

theorem refl (s : Cursor) : SamePlace s s :=
  ⟨rfl, rfl⟩

theorem symm (h : SamePlace s t) : SamePlace t s :=
  ⟨h.before.symm, h.rest.symm⟩

theorem trans (h : SamePlace s t) (h' : SamePlace t u) : SamePlace s u :=
  ⟨h.before.trans h'.before, h.rest.trans h'.rest⟩

theorem length_eq (h : SamePlace s t) : s.rest.length = t.rest.length :=
  congrArg List.length h.rest

end SamePlace

/-- The second cursor is reached by reading on from the first. -/
def Ahead (s t : Cursor) : Prop :=
  ∃ passed, s.rest = passed ++ t.rest ∧ t.before = passed.getLast?.or s.before

namespace Ahead

variable {s t u : Cursor}

theorem refl (s : Cursor) : Ahead s s :=
  ⟨[], rfl, rfl⟩

theorem trans (h : Ahead s t) (h' : Ahead t u) : Ahead s u := by
  obtain ⟨passed, hrest, hbefore⟩ := h
  obtain ⟨further, hrest', hbefore'⟩ := h'
  refine ⟨passed ++ further, ?_, ?_⟩
  · rw [hrest, hrest', List.append_assoc]
  · rw [hbefore', hbefore, List.getLast?_append, Option.or_assoc]

theorem length_le (h : Ahead s t) : t.rest.length ≤ s.rest.length := by
  obtain ⟨passed, hrest, _⟩ := h
  rw [hrest, List.length_append]
  exact Nat.le_add_left _ _

/-- What is reached from one cursor is told apart by how much is left to read. -/
theorem samePlace (h : Ahead s t) (h' : Ahead s u) (hlength : t.rest.length = u.rest.length) :
    SamePlace t u := by
  obtain ⟨passed, hrest, hbefore⟩ := h
  obtain ⟨passed', hrest', hbefore'⟩ := h'
  obtain ⟨hpassed, hleft⟩ := List.append_inj' (hrest.symm.trans hrest') hlength
  refine ⟨?_, hleft⟩
  rw [hbefore, hbefore', hpassed]

theorem samePlace_of_le (h : Ahead s t) (hle : s.rest.length ≤ t.rest.length) : SamePlace t s :=
  h.samePlace (refl s) (Nat.le_antisymm h.length_le hle)

end Ahead

/-!
# Relations between places
-/

/-- A relation that reads on, from wherever it can at a place. -/
structure Local (R : Cursor → Cursor → Prop) : Prop where
  ahead : ∀ {s t}, R s t → Ahead s t
  congr : ∀ {s s' t}, SamePlace s s' → R s t → ∃ t', R s' t' ∧ SamePlace t t'

namespace Local

variable {R S : Cursor → Cursor → Prop}

theorem seq (hR : Local R) (hS : Local S) : Local fun s t => ∃ u, R s u ∧ S u t := by
  constructor
  · intro s t h
    obtain ⟨u, hfirst, hsecond⟩ := h
    exact (hR.ahead hfirst).trans (hS.ahead hsecond)
  · intro s s' t hplace h
    obtain ⟨u, hfirst, hsecond⟩ := h
    obtain ⟨u', hfirst', hplace'⟩ := hR.congr hplace hfirst
    obtain ⟨t', hsecond', hend⟩ := hS.congr hplace' hsecond
    exact ⟨t', ⟨u', hfirst', hsecond'⟩, hend⟩

theorem or (hR : Local R) (hS : Local S) : Local fun s t => R s t ∨ S s t := by
  constructor
  · intro s t h
    cases h with
    | inl h => exact hR.ahead h
    | inr h => exact hS.ahead h
  · intro s s' t hplace h
    cases h with
    | inl h =>
        obtain ⟨t', h', hend⟩ := hR.congr hplace h
        exact ⟨t', Or.inl h', hend⟩
    | inr h =>
        obtain ⟨t', h', hend⟩ := hS.congr hplace h
        exact ⟨t', Or.inr h', hend⟩

theorem exists_and {P : Nat → Prop} {R : Nat → Cursor → Cursor → Prop}
    (hR : ∀ n, Local (R n)) : Local fun s t => ∃ n, P n ∧ R n s t := by
  constructor
  · intro s t h
    obtain ⟨n, _, h⟩ := h
    exact (hR n).ahead h
  · intro s s' t hplace h
    obtain ⟨n, hn, h⟩ := h
    obtain ⟨t', h', hend⟩ := (hR n).congr hplace h
    exact ⟨t', ⟨n, hn, h'⟩, hend⟩

theorem eq : Local fun s t => t = s := by
  constructor
  · intro s t h
    rw [h]
    exact .refl s
  · intro s s' t hplace h
    rw [h]
    exact ⟨s', rfl, hplace⟩

theorem times (hR : Local R) (n : Nat) : Local (Times R n) := by
  induction n with
  | zero =>
      exact eq
  | succ n ih =>
      exact hR.seq ih

end Local

theorem times_one (R : Cursor → Cursor → Prop) {s t : Cursor} : Times R 1 s t ↔ R s t := by
  constructor
  · intro h
    obtain ⟨u, hR, rfl⟩ := h
    exact hR
  · intro h
    exact ⟨t, h, rfl⟩

theorem times_add (R : Cursor → Cursor → Prop) {m n : Nat} {s t : Cursor} :
    Times R (m + n) s t ↔ ∃ u, Times R m s u ∧ Times R n u t := by
  induction m generalizing s with
  | zero =>
      rw [Nat.zero_add]
      constructor
      · intro h
        exact ⟨s, rfl, h⟩
      · intro h
        obtain ⟨u, rfl, h⟩ := h
        exact h
  | succ m ih =>
      rw [Nat.succ_add]
      constructor
      · intro h
        obtain ⟨u, hR, hmore⟩ := h
        obtain ⟨v, hm, hn⟩ := ih.mp hmore
        exact ⟨v, ⟨u, hR, hm⟩, hn⟩
      · intro h
        obtain ⟨v, ⟨u, hR, hm⟩, hn⟩ := h
        exact ⟨u, hR, ih.mpr ⟨v, hm, hn⟩⟩

theorem local_leads (p : Pattern) : Local (Leads p) := by
  induction p with
  | empty =>
      exact Local.eq
  | one set =>
      constructor
      · intro s t h
        obtain ⟨c, rest, hrest, _, rfl⟩ := h
        exact ⟨[c], hrest, rfl⟩
      · intro s s' t hplace h
        obtain ⟨c, rest, hrest, hset, rfl⟩ := h
        exact ⟨_, ⟨c, rest, hplace.rest ▸ hrest, hset, rfl⟩, rfl, rfl⟩
  | assertion a =>
      constructor
      · intro s t h
        rw [h.2]
        exact .refl s
      · intro s s' t hplace h
        obtain ⟨hholds, rfl⟩ := h
        rw [hplace.before, hplace.rest] at hholds
        exact ⟨s', ⟨hholds, rfl⟩, hplace⟩
  | seq p q hp hq =>
      exact hp.seq hq
  | either p q hp hq =>
      exact hp.or hq
  | repeated least most greedy p hp =>
      have hcounted := Local.exists_and (P := fun n => least ≤ n ∧ ∀ m ∈ most, n ≤ max least m)
        hp.times
      simp only [and_assoc] at hcounted
      exact hcounted
  | group index p hp =>
      constructor
      · intro s t h
        obtain ⟨u, hu, rfl⟩ := h
        obtain ⟨passed, hrest, hbefore⟩ := hp.ahead hu
        exact ⟨passed, hrest, hbefore⟩
      · intro s s' t hplace h
        obtain ⟨u, hu, rfl⟩ := h
        obtain ⟨u', hu', hend⟩ := hp.congr hplace hu
        exact ⟨_, ⟨u', hu', rfl⟩, hend.before, hend.rest⟩

end Regex
end XmlShape
