import Mathlib.Data.List.Induction
import XmlShape.Proofs.Regex.Match

/-!
# Searches and matches

A search lists matches only, and it ends somewhere at every place where a match ends. The search
for repetitions never goes on twice from one position: the positions that it has seen are those
that it has listed, and with a position it has seen all those that one further repetition reaches.
-/

namespace XmlShape
namespace Regex

/-- What a search lists at a cursor: matches, and an end at each place where a match ends. -/
structure Finds (R : Cursor → Cursor → Prop) (s : Cursor) (ends : List Cursor) : Prop where
  sound : ∀ t ∈ ends, R s t
  complete : ∀ t, R s t → ∃ u ∈ ends, SamePlace u t

/-!
# One end for each place
-/

theorem distinct_concat (ts : List Cursor) (t : Cursor) :
    distinct (ts ++ [t]) =
      if (distinct ts).any fun u => u.rest.length == t.rest.length then distinct ts
      else distinct ts ++ [t] := by
  rw [distinct, List.foldl_append]
  rfl

theorem mem_of_mem_distinct {ts : List Cursor} {t : Cursor} (h : t ∈ distinct ts) : t ∈ ts := by
  induction ts using List.reverseRecOn with
  | nil =>
      exact h
  | append_singleton ts u ih =>
      rw [distinct_concat] at h
      split at h
      · exact List.mem_append_left _ (ih h)
      · rw [List.mem_append] at h ⊢
        exact h.imp_left ih

theorem exists_mem_distinct {ts : List Cursor} {t : Cursor} (h : t ∈ ts) :
    ∃ u ∈ distinct ts, u.rest.length = t.rest.length := by
  induction ts using List.reverseRecOn with
  | nil =>
      cases h
  | append_singleton ts v ih =>
      rw [distinct_concat]
      rw [List.mem_append, List.mem_singleton] at h
      split
      · next hany =>
          cases h with
          | inl h =>
              exact ih h
          | inr h =>
              obtain ⟨u, hu, hlength⟩ := List.any_eq_true.mp hany
              rw [h]
              exact ⟨u, hu, eq_of_beq hlength⟩
      · cases h with
        | inl h =>
            obtain ⟨u, hu, hlength⟩ := ih h
            exact ⟨u, List.mem_append_left _ hu, hlength⟩
        | inr h =>
            rw [h]
            exact ⟨v, List.mem_append_right _ (List.mem_singleton_self v), rfl⟩

/-!
# Parts of a search
-/

namespace Finds

variable {R S : Cursor → Cursor → Prop} {s : Cursor} {ts us : List Cursor}

theorem congr (h : Finds R s ts) (hiff : ∀ t, R s t ↔ S s t) : Finds S s ts := by
  constructor
  · intro t ht
    exact (hiff t).mp (h.sound t ht)
  · intro t ht
    exact h.complete t ((hiff t).mpr ht)

theorem distinct (hR : Local R) (h : Finds R s ts) : Finds R s (distinct ts) := by
  constructor
  · intro t ht
    exact h.sound t (mem_of_mem_distinct ht)
  · intro t ht
    obtain ⟨u, hu, hplace⟩ := h.complete t ht
    obtain ⟨v, hv, hlength⟩ := exists_mem_distinct hu
    have hmatch := h.sound v (mem_of_mem_distinct hv)
    exact ⟨v, hv, ((hR.ahead hmatch).samePlace (hR.ahead (h.sound u hu)) hlength).trans hplace⟩

theorem self (s : Cursor) : Finds (fun s t => t = s) s [s] := by
  constructor
  · intro t ht
    exact List.mem_singleton.mp ht
  · intro t ht
    rw [ht]
    exact ⟨s, List.mem_singleton_self s, .refl s⟩

theorem append (h : Finds R s ts) (h' : Finds S s us) :
    Finds (fun s t => R s t ∨ S s t) s (ts ++ us) := by
  constructor
  · intro t ht
    exact (List.mem_append.mp ht).imp (h.sound t) (h'.sound t)
  · intro t ht
    cases ht with
    | inl ht =>
        obtain ⟨u, hu, hplace⟩ := h.complete t ht
        exact ⟨u, List.mem_append_left _ hu, hplace⟩
    | inr ht =>
        obtain ⟨u, hu, hplace⟩ := h'.complete t ht
        exact ⟨u, List.mem_append_right _ hu, hplace⟩

theorem flatMap {next : Cursor → List Cursor} (hS : Local S) (h : Finds R s ts)
    (h' : ∀ t, Finds S t (next t)) : Finds (fun s t => ∃ u, R s u ∧ S u t) s (ts.flatMap next) := by
  constructor
  · intro t ht
    obtain ⟨u, hu, ht⟩ := List.mem_flatMap.mp ht
    exact ⟨u, h.sound u hu, (h' u).sound t ht⟩
  · intro t ht
    obtain ⟨u, hfirst, hsecond⟩ := ht
    obtain ⟨v, hv, hplace⟩ := h.complete u hfirst
    obtain ⟨t', hsecond', hend⟩ := hS.congr hplace.symm hsecond
    obtain ⟨w, hw, hplace'⟩ := (h' v).complete t' hsecond'
    exact ⟨w, List.mem_flatMap.mpr ⟨v, hv, hw⟩, hplace'.trans hend.symm⟩

end Finds

/-!
# Counted repetitions
-/

section Repetition

variable {R : Cursor → Cursor → Prop} {body : Cursor → List Cursor}

theorem finds_exactly (hR : Local R) (hbody : ∀ s, Finds R s (body s)) (n : Nat) (s : Cursor) :
    Finds (Times R n) s (exactly body n s) := by
  induction n generalizing s with
  | zero =>
      exact .self s
  | succ n ih =>
      exact ((hbody s).flatMap (hR.times n) ih).distinct (hR.times (n + 1))

theorem finds_optionally {more : Cursor → List Cursor} {s : Cursor} (hR : Local R)
    (h : Finds R s (more s)) (greedy : Bool) :
    Finds (fun s t => t = s ∨ R s t) s (optionally more greedy s) := by
  unfold optionally
  apply Finds.distinct (Local.eq.or hR)
  cases greedy with
  | true =>
      exact (h.append (.self s)).congr fun t => or_comm
  | false =>
      exact (Finds.self s).append h

theorem local_timesUpTo (hR : Local R) (n : Nat) : Local fun s t => ∃ m, m ≤ n ∧ Times R m s t :=
  Local.exists_and hR.times

theorem timesUpTo_succ {n : Nat} {s t : Cursor} :
    (∃ m, m ≤ n + 1 ∧ Times R m s t) ↔
      t = s ∨ ∃ u, R s u ∧ ∃ m, m ≤ n ∧ Times R m u t := by
  constructor
  · intro h
    obtain ⟨m, hm, ht⟩ := h
    cases m with
    | zero =>
        exact Or.inl ht
    | succ m =>
        obtain ⟨u, hu, ht⟩ := ht
        exact Or.inr ⟨u, hu, m, Nat.le_of_succ_le_succ hm, ht⟩
  · intro h
    cases h with
    | inl h =>
        exact ⟨0, Nat.zero_le _, h⟩
    | inr h =>
        obtain ⟨u, hu, m, hm, ht⟩ := h
        exact ⟨m + 1, Nat.succ_le_succ hm, u, hu, ht⟩

theorem finds_atMost (hR : Local R) (hbody : ∀ s, Finds R s (body s)) (greedy : Bool) (n : Nat)
    (s : Cursor) : Finds (fun s t => ∃ m, m ≤ n ∧ Times R m s t) s (atMost body greedy n s) := by
  induction n generalizing s with
  | zero =>
      refine (Finds.self s).congr fun t => ?_
      constructor
      · intro h
        exact ⟨0, Nat.le_refl 0, h⟩
      · intro h
        obtain ⟨m, hm, ht⟩ := h
        rw [Nat.le_zero.mp hm] at ht
        exact ht
  | succ n ih =>
      have hmore := (hbody s).flatMap (local_timesUpTo hR n) ih
      have hlocal := hR.seq (local_timesUpTo hR n)
      exact (finds_optionally hlocal hmore greedy).congr fun t => timesUpTo_succ.symm

/-!
# Repetitions without a limit
-/

/-- What a search for further repetitions has done. It starts at some cursors with the positions
that have been `seen` before, and yields ends and the positions that have been seen then. Only
positions beyond `start` count. -/
structure Explored (R : Cursor → Cursor → Prop) (body : Cursor → List Cursor) (start : Nat)
    (from' : List Cursor) (seen : List Nat) (result : List Cursor × List Nat) : Prop where
  sound : ∀ t ∈ result.1, ∃ s ∈ from', ∃ n, Times R n s t
  kept : ∀ x ∈ seen, x ∈ result.2
  started : ∀ s ∈ from', s.rest.length < start → s.rest.length ∈ result.2
  stayed : ∀ s ∈ from', start ≤ s.rest.length → s ∈ result.1
  found : ∀ x ∈ result.2, x ∈ seen ∨ ∃ t ∈ result.1, t.rest.length = x
  closed : ∀ t ∈ result.1, t.rest.length < start → ∀ u ∈ body t,
    u.rest.length < t.rest.length → u.rest.length ∈ result.2

theorem explored_through {start : Nat} {f : List Nat → Cursor → List Cursor × List Nat}
    {ts : List Cursor} {seen : List Nat}
    (hf : ∀ t ∈ ts, ∀ seen, Explored R body start [t] seen (f seen t)) :
    Explored R body start ts seen (through f seen ts) := by
  induction ts generalizing seen with
  | nil =>
      constructor <;> simp [through]
  | cons t ts ih =>
      have hfirst := hf t List.mem_cons_self seen
      have hothers : Explored R body start ts (f seen t).2 (through f (f seen t).2 ts) :=
        ih fun u hu => hf u (List.mem_cons_of_mem t hu)
      rw [through]
      constructor
      · intro u hu
        cases List.mem_append.mp hu with
        | inl hu =>
            obtain ⟨s, hs, hreached⟩ := hfirst.sound u hu
            rw [List.mem_singleton.mp hs] at hreached
            exact ⟨t, List.mem_cons_self, hreached⟩
        | inr hu =>
            obtain ⟨s, hs, hreached⟩ := hothers.sound u hu
            exact ⟨s, List.mem_cons_of_mem t hs, hreached⟩
      · intro x hx
        exact hothers.kept x (hfirst.kept x hx)
      · intro s hs hlt
        cases List.mem_cons.mp hs with
        | inl hs =>
            exact hothers.kept _ (hfirst.started s (List.mem_singleton.mpr hs) hlt)
        | inr hs =>
            exact hothers.started s hs hlt
      · intro s hs hle
        cases List.mem_cons.mp hs with
        | inl hs =>
            exact List.mem_append_left _ (hfirst.stayed s (List.mem_singleton.mpr hs) hle)
        | inr hs =>
            exact List.mem_append_right _ (hothers.stayed s hs hle)
      · intro x hx
        cases hothers.found x hx with
        | inl hx =>
            refine (hfirst.found x hx).imp_right fun h => ?_
            obtain ⟨u, hu, hlength⟩ := h
            exact ⟨u, List.mem_append_left _ hu, hlength⟩
        | inr h =>
            obtain ⟨u, hu, hlength⟩ := h
            exact Or.inr ⟨u, List.mem_append_right _ hu, hlength⟩
      · intro v hv hlt u hu hahead
        cases List.mem_append.mp hv with
        | inl hv =>
            exact hothers.kept _ (hfirst.closed v hv hlt u hu hahead)
        | inr hv =>
            exact hothers.closed v hv hlt u hu hahead

theorem Explored.around (hsound : ∀ s, ∀ t ∈ body s, R s t) {start : Nat} {seen : List Nat}
    {s : Cursor} {ends : List Cursor} {result : List Cursor × List Nat}
    (hstart : s.rest.length < start)
    (h : Explored R body start ((body s).filter fun t => t.rest.length < s.rest.length)
      (s.rest.length :: seen) result)
    (hends : ∀ t, t ∈ ends ↔ t = s ∨ t ∈ result.1) :
    Explored R body start [s] seen (ends, result.2) := by
  constructor
  · intro t ht
    refine ⟨s, List.mem_singleton_self s, ?_⟩
    cases (hends t).mp ht with
    | inl ht =>
        exact ⟨0, ht⟩
    | inr ht =>
        obtain ⟨u, hu, n, hn⟩ := h.sound t ht
        exact ⟨n + 1, u, hsound s u (List.mem_filter.mp hu).1, hn⟩
  · intro x hx
    exact h.kept x (List.mem_cons_of_mem _ hx)
  · intro u hu _
    rw [List.mem_singleton.mp hu]
    exact h.kept _ List.mem_cons_self
  · intro u hu hle
    rw [List.mem_singleton.mp hu] at hle
    exact absurd hstart (Nat.not_lt.mpr hle)
  · intro x hx
    cases h.found x hx with
    | inl hx =>
        cases List.mem_cons.mp hx with
        | inl hx =>
            exact Or.inr ⟨s, (hends s).mpr (Or.inl rfl), hx.symm⟩
        | inr hx =>
            exact Or.inl hx
    | inr hfound =>
        obtain ⟨t, ht, hlength⟩ := hfound
        exact Or.inr ⟨t, (hends t).mpr (Or.inr ht), hlength⟩
  · intro t ht hlt u hu hahead
    cases (hends t).mp ht with
    | inl ht =>
        rw [ht] at hu hahead
        apply h.started u _ (Nat.lt_trans hahead hstart)
        exact List.mem_filter.mpr ⟨hu, decide_eq_true hahead⟩
    | inr ht =>
        exact h.closed t ht hlt u hu hahead

theorem explored_seen {start : Nat} {seen : List Nat} {s : Cursor}
    (hstart : s.rest.length < start) (hseen : s.rest.length ∈ seen) :
    Explored R body start [s] seen ([], seen) := by
  constructor
  · intro t ht
    cases ht
  · intro x hx
    exact hx
  · intro u hu _
    rw [List.mem_singleton.mp hu]
    exact hseen
  · intro u hu hle
    rw [List.mem_singleton.mp hu] at hle
    exact absurd hstart (Nat.not_lt.mpr hle)
  · intro x hx
    exact Or.inl hx
  · intro t ht
    cases ht

theorem explored_further (hsound : ∀ s, ∀ t ∈ body s, R s t) {start : Nat} (greedy : Bool)
    (fuel : Nat) {seen : List Nat} {s : Cursor} (hfuel : s.rest.length < fuel)
    (hstart : s.rest.length < start) :
    Explored R body start [s] seen (further body greedy fuel seen s) := by
  induction fuel generalizing seen s with
  | zero =>
      exact absurd hfuel (Nat.not_lt_zero _)
  | succ fuel ih =>
      unfold further
      split
      · next hseen =>
          exact explored_seen hstart (List.contains_iff_mem.mp hseen)
      · apply Explored.around hsound hstart
        · apply explored_through
          intro t ht seen
          have hahead := of_decide_eq_true (List.mem_filter.mp ht).2
          exact ih (by omega) (Nat.lt_trans hahead hstart)
        · intro t
          cases greedy with
          | true =>
              simp [or_comm]
          | false =>
              simp

/-- A repetition that does not get ahead ends the search at once. -/
theorem explored_stay {start : Nat} {seen : List Nat} {s : Cursor}
    (hstart : start ≤ s.rest.length) : Explored R body start [s] seen ([s], seen) := by
  constructor
  · intro t ht
    exact ⟨t, ht, 0, rfl⟩
  · intro x hx
    exact hx
  · intro u hu hlt
    rw [List.mem_singleton.mp hu] at hlt
    exact absurd hstart (Nat.not_le.mpr hlt)
  · intro u hu _
    exact hu
  · intro x hx
    exact Or.inl hx
  · intro t ht hlt
    rw [List.mem_singleton.mp ht] at hlt
    exact absurd hstart (Nat.not_le.mpr hlt)

theorem Explored.ahead (hR : Local R) {origin : Cursor} {starts : List Cursor} {seen : List Nat}
    {result : List Cursor × List Nat} {start : Nat} (h : Explored R body start starts seen result)
    (hstarts : ∀ s ∈ starts, Ahead origin s) : ∀ t ∈ result.1, Ahead origin t := by
  intro t ht
  obtain ⟨s, hs, n, hn⟩ := h.sound t ht
  exact (hstarts s hs).trans ((hR.times n).ahead hn)

theorem Explored.exists_end_at (hR : Local R) {origin : Cursor} {starts : List Cursor}
    {result : List Cursor × List Nat} {start : Nat} (h : Explored R body start starts [] result)
    (hstarts : ∀ s ∈ starts, Ahead origin s) {s : Cursor} (hs : Ahead origin s)
    (hseen : s.rest.length ∈ result.2) : ∃ t ∈ result.1, SamePlace t s := by
  cases h.found _ hseen with
  | inl hnone =>
      cases hnone
  | inr hfound =>
      obtain ⟨t, ht, hlength⟩ := hfound
      exact ⟨t, ht, (h.ahead hR hstarts t ht).samePlace hs hlength⟩

/-- The positions that have been seen are closed under repetition, so an end has been listed at
every place that repetitions reach from one of them. -/
theorem Explored.exists_end (hR : Local R) (hbody : ∀ s, Finds R s (body s)) {origin : Cursor}
    {starts : List Cursor} {result : List Cursor × List Nat} {start : Nat}
    (h : Explored R body start starts [] result) (hstarts : ∀ s ∈ starts, Ahead origin s)
    {n : Nat} {s t : Cursor} (hs : Ahead origin s) (hlt : s.rest.length < start)
    (hseen : s.rest.length ∈ result.2) (hn : Times R n s t) :
    ∃ u ∈ result.1, SamePlace u t := by
  induction n generalizing s with
  | zero =>
      rw [hn]
      exact h.exists_end_at hR hstarts hs hseen
  | succ n ih =>
      obtain ⟨w, hw, hn⟩ := hn
      obtain ⟨s', hs', hplace⟩ := h.exists_end_at hR hstarts hs hseen
      obtain ⟨w', hw', hplace'⟩ := hR.congr hplace.symm hw
      obtain ⟨u, hu, hplace''⟩ := (hbody s').complete w' hw'
      have hsame : w.rest.length = u.rest.length := (hplace''.trans hplace'.symm).length_eq.symm
      have hlength : s'.rest.length = s.rest.length := hplace.length_eq
      have hle : w.rest.length ≤ s.rest.length := (hR.ahead hw).length_le
      have hwseen : w.rest.length ∈ result.2 := by
        by_cases hahead : w.rest.length < s.rest.length
        · rw [hsame]
          exact h.closed s' hs' (by omega) u hu (by omega)
        · rw [Nat.le_antisymm hle (Nat.not_lt.mp hahead)]
          exact hseen
      exact ih (hs.trans (hR.ahead hw)) (Nat.lt_of_le_of_lt hle hlt) hwseen hn

theorem local_timesAtLeastOnce (hR : Local R) : Local fun s t => ∃ n, 1 ≤ n ∧ Times R n s t :=
  Local.exists_and hR.times

/-- The repetitions that get ahead at first have been explored. The others are back where they
began, so the rest of them counts alone. -/
theorem Explored.complete (hR : Local R) (hbody : ∀ s, Finds R s (body s)) {s : Cursor}
    {result : List Cursor × List Nat} (h : Explored R body s.rest.length (body s) [] result)
    {n : Nat} {t : Cursor} (hn : Times R (n + 1) s t) : ∃ u ∈ result.1, SamePlace u t := by
  have hahead : ∀ u ∈ body s, Ahead s u := fun u hu => hR.ahead ((hbody s).sound u hu)
  induction n generalizing t with
  | zero =>
      obtain ⟨u, hu, hplace⟩ := (hbody s).complete t ((times_one R).mp hn)
      by_cases hlt : u.rest.length < s.rest.length
      · have hseen := h.started u hu hlt
        rw [hplace.length_eq] at hlt hseen
        exact h.exists_end_at hR hahead (hR.ahead ((times_one R).mp hn)) hseen
      · exact ⟨u, h.stayed u hu (Nat.not_lt.mp hlt), hplace⟩
  | succ n ih =>
      obtain ⟨w, hw, hn⟩ := hn
      obtain ⟨u, hu, hplace⟩ := (hbody s).complete w hw
      by_cases hlt : u.rest.length < s.rest.length
      · have hseen := h.started u hu hlt
        rw [hplace.length_eq] at hlt hseen
        exact h.exists_end hR hbody hahead (hR.ahead hw) hlt hseen hn
      · have hback : SamePlace w s :=
          hplace.symm.trans ((hahead u hu).samePlace_of_le (Nat.not_lt.mp hlt))
        obtain ⟨t', hn', hend⟩ := (hR.times (n + 1)).congr hback hn
        obtain ⟨v, hv, hplace'⟩ := ih hn'
        exact ⟨v, hv, hplace'.trans hend.symm⟩

theorem finds_atLeastOnce (hR : Local R) (hbody : ∀ s, Finds R s (body s)) (greedy : Bool)
    (s : Cursor) : Finds (fun s t => ∃ n, 1 ≤ n ∧ Times R n s t) s (atLeastOnce body greedy s) := by
  have hsound : ∀ s, ∀ t ∈ body s, R s t := fun s => (hbody s).sound
  have hexplored : Explored R body s.rest.length (body s) []
      (through (fun seen (t : Cursor) =>
        if t.rest.length < s.rest.length then further body greedy (t.rest.length + 1) seen t
        else ([t], seen)) [] (body s)) := by
    apply explored_through
    intro t _ seen
    split
    · next hahead =>
        exact explored_further hsound greedy _ (Nat.lt_succ_self _) hahead
    · next hstay =>
        exact explored_stay (Nat.not_lt.mp hstay)
  apply Finds.distinct (local_timesAtLeastOnce hR)
  constructor
  · intro t ht
    obtain ⟨u, hu, n, hn⟩ := hexplored.sound t ht
    exact ⟨n + 1, Nat.le_add_left 1 n, u, hsound s u hu, hn⟩
  · intro t ht
    obtain ⟨n, hpos, hn⟩ := ht
    obtain ⟨n, rfl⟩ := Nat.exists_eq_add_of_le' hpos
    exact hexplored.complete hR hbody hn

/-!
# Whole patterns
-/

theorem times_between {least most : Nat} {s t : Cursor} :
    (∃ u, Times R least s u ∧ ∃ m, m ≤ most - least ∧ Times R m u t) ↔
      ∃ n, least ≤ n ∧ n ≤ max least most ∧ Times R n s t := by
  constructor
  · intro h
    obtain ⟨u, hleast, m, hm, hmore⟩ := h
    exact ⟨least + m, Nat.le_add_right least m, by omega, (times_add R).mpr ⟨u, hleast, hmore⟩⟩
  · intro h
    obtain ⟨n, hleast, hmost, hn⟩ := h
    obtain ⟨m, rfl⟩ := Nat.exists_eq_add_of_le hleast
    obtain ⟨u, hfirst, hmore⟩ := (times_add R).mp hn
    exact ⟨u, hfirst, m, by omega, hmore⟩

theorem times_fromOne {least : Nat} {s t : Cursor} :
    (∃ u, Times R least s u ∧ ∃ m, 1 ≤ m ∧ Times R m u t) ↔
      ∃ n, least + 1 ≤ n ∧ Times R n s t := by
  constructor
  · intro h
    obtain ⟨u, hleast, m, hm, hmore⟩ := h
    exact ⟨least + m, by omega, (times_add R).mpr ⟨u, hleast, hmore⟩⟩
  · intro h
    obtain ⟨n, hle, hn⟩ := h
    obtain ⟨m, rfl⟩ := Nat.exists_eq_add_of_le (Nat.le_of_succ_le hle)
    obtain ⟨u, hfirst, hmore⟩ := (times_add R).mp hn
    exact ⟨u, hfirst, m, by omega, hmore⟩

theorem times_fromZero {s t : Cursor} :
    (t = s ∨ ∃ n, 1 ≤ n ∧ Times R n s t) ↔ ∃ n, 0 ≤ n ∧ Times R n s t := by
  constructor
  · intro h
    cases h with
    | inl h =>
        exact ⟨0, Nat.le_refl 0, h⟩
    | inr h =>
        obtain ⟨n, _, hn⟩ := h
        exact ⟨n, Nat.zero_le n, hn⟩
  · intro h
    obtain ⟨n, _, hn⟩ := h
    cases n with
    | zero =>
        exact Or.inl hn
    | succ n =>
        exact Or.inr ⟨n + 1, Nat.le_add_left 1 n, hn⟩

theorem leads_repeated_none {least : Nat} {greedy : Bool} {p : Pattern} {s t : Cursor} :
    Leads (.repeated least none greedy p) s t ↔ ∃ n, least ≤ n ∧ Times (Leads p) n s t := by
  simp [Leads]

theorem leads_repeated_some {least most : Nat} {greedy : Bool} {p : Pattern} {s t : Cursor} :
    Leads (.repeated least (some most) greedy p) s t ↔
      ∃ n, least ≤ n ∧ n ≤ max least most ∧ Times (Leads p) n s t := by
  simp only [Leads, Option.mem_some_iff, forall_eq']

theorem finds_repeated {p : Pattern} (hp : ∀ s, Finds (Leads p) s (ends p s)) (least : Nat)
    (most : Option Nat) (greedy : Bool) (s : Cursor) :
    Finds (Leads (.repeated least most greedy p)) s (ends (.repeated least most greedy p) s) := by
  have hlocal := local_leads p
  cases most with
  | some most =>
      have hfinds := (finds_exactly hlocal hp least s).flatMap
        (local_timesUpTo hlocal (most - least)) (finds_atMost hlocal hp greedy (most - least))
      apply Finds.distinct (local_leads _)
      exact hfinds.congr fun t => times_between.trans leads_repeated_some.symm
  | none =>
      cases least with
      | zero =>
          have hfinds := finds_optionally (local_timesAtLeastOnce hlocal)
            (finds_atLeastOnce hlocal hp greedy s) greedy
          exact hfinds.congr fun t => times_fromZero.trans leads_repeated_none.symm
      | succ least =>
          have hfinds := (finds_exactly hlocal hp least s).flatMap
            (local_timesAtLeastOnce hlocal) (finds_atLeastOnce hlocal hp greedy)
          apply Finds.distinct (local_leads _)
          exact hfinds.congr fun t => times_fromOne.trans leads_repeated_none.symm

/-- The search for a pattern lists matches, and an end at every place where a match ends. -/
theorem finds_ends (p : Pattern) (s : Cursor) : Finds (Leads p) s (ends p s) := by
  induction p generalizing s with
  | empty =>
      exact .self s
  | one set =>
      constructor
      · intro t ht
        unfold ends at ht
        split at ht
        · next c rest hrest =>
            split at ht
            · next hset =>
                exact ⟨c, rest, hrest, hset, List.mem_singleton.mp ht⟩
            · cases ht
        · cases ht
      · intro t ht
        obtain ⟨c, rest, hrest, hset, rfl⟩ := ht
        simp only [ends, hrest, hset, if_true]
        exact ⟨_, List.mem_singleton_self _, .refl _⟩
  | assertion a =>
      constructor
      · intro t ht
        unfold ends at ht
        split at ht
        · next hholds =>
            exact ⟨hholds, List.mem_singleton.mp ht⟩
        · cases ht
      · intro t ht
        obtain ⟨hholds, rfl⟩ := ht
        simp only [ends, hholds, if_true]
        exact ⟨_, List.mem_singleton_self _, .refl _⟩
  | seq p q hp hq =>
      exact ((hp s).flatMap (local_leads q) hq).distinct (local_leads (.seq p q))
  | either p q hp hq =>
      exact ((hp s).append (hq s)).distinct (local_leads (.either p q))
  | repeated least most greedy p hp =>
      exact finds_repeated hp least most greedy s
  | group index p hp =>
      constructor
      · intro t ht
        obtain ⟨u, hu, rfl⟩ := List.mem_map.mp ht
        exact ⟨u, (hp s).sound u hu, rfl⟩
      · intro t ht
        obtain ⟨u, hu, rfl⟩ := ht
        obtain ⟨v, hv, hplace⟩ := (hp s).complete u hu
        exact ⟨_, List.mem_map_of_mem hv, hplace.before, hplace.rest⟩

end Repetition

end Regex
end XmlShape
