import XmlShape.Proofs.Regex.Match

/-!
# Languages of patterns

A pattern without assertions and groups matches the texts of a language, wherever they stand.
-/

namespace XmlShape
namespace Regex

def Cursor.past (s : Cursor) (passed rest : List Char) : Cursor :=
  { s with before := passed.getLast?.or s.before, rest }

theorem Cursor.past_past (s : Cursor) (front back middle rest : List Char) :
    (s.past front middle).past back rest = s.past (front ++ back) rest := by
  simp only [past, List.getLast?_append, Option.or_assoc]

/-- A relation reads on by the texts of a language, and by no others. -/
def Spells (R : Cursor → Cursor → Prop) (L : List Char → Prop) : Prop :=
  ∀ s t, R s t ↔ ∃ w, L w ∧ s.rest = w ++ t.rest ∧ t = s.past w t.rest

namespace Spells

variable {R S : Cursor → Cursor → Prop} {L M : List Char → Prop}

theorem congr (h : Spells R L) (hiff : ∀ w, L w ↔ M w) : Spells R M := by
  intro s t
  simp only [h s t, hiff]

theorem stay : Spells (fun s t => t = s) (· = []) := by
  intro s t
  constructor
  · intro h
    rw [h]
    exact ⟨[], rfl, rfl, rfl⟩
  · intro h
    obtain ⟨w, rfl, hrest, ht⟩ := h
    rw [ht, ← List.nil_append t.rest, ← hrest]
    rfl

theorem seq (hR : Spells R L) (hS : Spells S M) :
    Spells (fun s t => ∃ m, R s m ∧ S m t) fun w => ∃ u v, L u ∧ M v ∧ w = u ++ v := by
  intro s t
  constructor
  · intro h
    obtain ⟨m, hfirst, hsecond⟩ := h
    obtain ⟨u, hu, hrest, hm⟩ := (hR s m).mp hfirst
    obtain ⟨v, hv, hrest', ht⟩ := (hS m t).mp hsecond
    refine ⟨u ++ v, ⟨u, v, hu, hv, rfl⟩, ?_, ?_⟩
    · rw [hrest, hrest', List.append_assoc]
    · rw [← Cursor.past_past s u v m.rest, ← hm]
      exact ht
  · intro h
    obtain ⟨w, ⟨u, v, hu, hv, rfl⟩, hrest, ht⟩ := h
    rw [List.append_assoc] at hrest
    rw [← Cursor.past_past s u v (v ++ t.rest)] at ht
    exact ⟨s.past u (v ++ t.rest), (hR s _).mpr ⟨u, hu, hrest, rfl⟩,
      (hS _ t).mpr ⟨v, hv, rfl, ht⟩⟩

theorem or (hR : Spells R L) (hS : Spells S M) :
    Spells (fun s t => R s t ∨ S s t) fun w => L w ∨ M w := by
  intro s t
  constructor
  · intro h
    cases h with
    | inl h =>
        obtain ⟨w, hw, hmatch⟩ := (hR s t).mp h
        exact ⟨w, Or.inl hw, hmatch⟩
    | inr h =>
        obtain ⟨w, hw, hmatch⟩ := (hS s t).mp h
        exact ⟨w, Or.inr hw, hmatch⟩
  · intro h
    obtain ⟨w, hw, hmatch⟩ := h
    cases hw with
    | inl hw =>
        exact Or.inl ((hR s t).mpr ⟨w, hw, hmatch⟩)
    | inr hw =>
        exact Or.inr ((hS s t).mpr ⟨w, hw, hmatch⟩)

end Spells

/-!
# Single characters
-/

theorem spells_one (set : CharSet) :
    Spells (Leads (.one set)) fun w => ∃ c, set.contains c = true ∧ w = [c] := by
  intro s t
  constructor
  · intro h
    obtain ⟨c, rest, hrest, hset, rfl⟩ := h
    exact ⟨[c], ⟨c, hset, rfl⟩, hrest, rfl⟩
  · intro h
    obtain ⟨w, ⟨c, hset, rfl⟩, hrest, ht⟩ := h
    exact ⟨c, t.rest, hrest, hset, ht⟩

theorem spells_times_one (set : CharSet) (n : Nat) :
    Spells (Times (Leads (.one set)) n) fun w =>
      w.length = n ∧ ∀ c ∈ w, set.contains c = true := by
  induction n with
  | zero =>
      apply Spells.stay.congr
      intro w
      constructor
      · intro h
        rw [h]
        exact ⟨rfl, List.forall_mem_nil _⟩
      · intro h
        exact List.length_eq_zero_iff.mp h.1
  | succ n ih =>
      apply ((spells_one set).seq ih).congr
      intro w
      constructor
      · intro h
        obtain ⟨_, v, ⟨c, hc, rfl⟩, ⟨hlength, hv⟩, rfl⟩ := h
        refine ⟨congrArg (· + 1) hlength, ?_⟩
        exact List.forall_mem_cons.mpr ⟨hc, hv⟩
      · intro h
        obtain ⟨hlength, hw⟩ := h
        cases w with
        | nil =>
            cases hlength
        | cons c v =>
            obtain ⟨hc, hv⟩ := List.forall_mem_cons.mp hw
            exact ⟨[c], v, ⟨c, hc, rfl⟩, ⟨Nat.succ.inj hlength, hv⟩, rfl⟩

theorem spells_repeated_one (set : CharSet) (least : Nat) (greedy : Bool) :
    Spells (Leads (.repeated least none greedy (.one set))) fun w =>
      least ≤ w.length ∧ ∀ c ∈ w, set.contains c = true := by
  intro s t
  constructor
  · intro h
    obtain ⟨n, hleast, _, hn⟩ := h
    obtain ⟨w, ⟨rfl, hw⟩, hmatch⟩ := (spells_times_one set n s t).mp hn
    exact ⟨w, ⟨hleast, hw⟩, hmatch⟩
  · intro h
    obtain ⟨w, ⟨hleast, hw⟩, hmatch⟩ := h
    refine ⟨w.length, hleast, ?_, (spells_times_one set w.length s t).mpr ⟨w, ⟨rfl, hw⟩, hmatch⟩⟩
    intro m hm
    cases hm

theorem contains_single (c other : Char) :
    (CharSet.single c).contains other = true ↔ other = c := by
  simp only [CharSet.single, CharSet.contains, Bool.and_eq_true, decide_eq_true_eq]
  constructor
  · intro h
    exact Char.le_antisymm h.2 h.1
  · intro h
    rw [h]
    exact ⟨Char.le_refl c, Char.le_refl c⟩

theorem contains_foldl_union (set : CharSet) (cs : List Char) (other : Char) :
    (cs.foldl (fun s c => CharSet.union s (.single c)) set).contains other = true ↔
      set.contains other = true ∨ other ∈ cs := by
  induction cs generalizing set with
  | nil =>
      simp
  | cons c cs ih =>
      rw [List.foldl_cons, ih, CharSet.contains, Bool.or_eq_true, contains_single, or_assoc,
        List.mem_cons]

theorem contains_ofList (cs : List Char) (other : Char) :
    (CharSet.ofList cs).contains other = true ↔ other ∈ cs := by
  rw [CharSet.ofList, contains_foldl_union]
  simp [CharSet.contains]

theorem contains_complement (set : CharSet) (other : Char) :
    (CharSet.complement set).contains other = true ↔ ¬set.contains other = true := by
  simp [CharSet.contains]

/-!
# Sequences
-/

theorem leads_sequence_cons (p : Pattern) (ps : List Pattern) (s t : Cursor) :
    Leads (sequence (p :: ps)) s t ↔ ∃ m, Leads p s m ∧ Leads (sequence ps) m t := by
  cases ps with
  | nil =>
      constructor
      · intro h
        exact ⟨t, h, rfl⟩
      · intro h
        obtain ⟨m, hp, rfl⟩ := h
        exact hp
  | cons q qs =>
      rfl

theorem leads_sequence_append (ps qs : List Pattern) (s t : Cursor) :
    Leads (sequence (ps ++ qs)) s t ↔
      ∃ m, Leads (sequence ps) s m ∧ Leads (sequence qs) m t := by
  induction ps generalizing s with
  | nil =>
      constructor
      · intro h
        exact ⟨s, rfl, h⟩
      · intro h
        obtain ⟨m, rfl, hqs⟩ := h
        exact hqs
  | cons p ps ih =>
      rw [List.cons_append, leads_sequence_cons]
      simp only [ih, leads_sequence_cons]
      constructor
      · intro h
        obtain ⟨u, hp, m, hps, hqs⟩ := h
        exact ⟨m, ⟨u, hp, hps⟩, hqs⟩
      · intro h
        obtain ⟨m, ⟨u, hp, hps⟩, hqs⟩ := h
        exact ⟨u, hp, m, hps, hqs⟩

theorem spells_sequence_cons {p : Pattern} {ps : List Pattern} {L M : List Char → Prop}
    (hp : Spells (Leads p) L) (hps : Spells (Leads (sequence ps)) M) :
    Spells (Leads (sequence (p :: ps))) fun w => ∃ u v, L u ∧ M v ∧ w = u ++ v := by
  intro s t
  rw [leads_sequence_cons]
  exact hp.seq hps s t

theorem spells_literal (text : List Char) :
    Spells (Leads (sequence (literal text))) (· = text) := by
  induction text with
  | nil =>
      exact Spells.stay
  | cons c cs ih =>
      apply (spells_sequence_cons (spells_one _) ih).congr
      intro w
      constructor
      · intro h
        obtain ⟨_, _, ⟨other, hother, rfl⟩, rfl, rfl⟩ := h
        rw [(contains_single c other).mp hother]
        rfl
      · intro h
        exact ⟨[c], cs, ⟨c, (contains_single c c).mpr rfl, rfl⟩, rfl, h⟩

end Regex
end XmlShape
