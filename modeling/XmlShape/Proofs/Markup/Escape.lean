import XmlShape.Markup.Reference
import XmlShape.Text.Blank

/-!
# Writing and reading references

Whatever characters are written as references, reading the references gives the text back as long
as every `&` is one of them. The written form holds none of the characters it avoids, and the
spaces at its ends are the spaces at the ends of the text. Read or written, a text may be taken out
of plain characters that stand around it.
-/

namespace XmlShape
namespace Markup

open Text

/-!
# Single characters

A character that is to be avoided is written as a reference if it has a name, and every other
character stands for itself.
-/

def named : List Char :=
  ['<', '>', '&', '\x27', '\x22']

def writtenNames : List (List Char) :=
  [['&', 'l', 't', ';'], ['&', 'g', 't', ';'], ['&', 'a', 'm', 'p', ';'],
   ['&', 'a', 'p', 'o', 's', ';'], ['&', 'q', 'u', 'o', 't', ';']]

theorem escape_cons (special : Char → Bool) (c : Char) (cs : List Char) :
    escape special (c :: cs) = escape special [c] ++ escape special cs := by
  simp [escape]

theorem escape_append (special : Char → Bool) (xs ys : List Char) :
    escape special (xs ++ ys) = escape special xs ++ escape special ys := by
  induction xs with
  | nil =>
      rfl
  | cons c xs ih =>
      rw [List.cons_append, escape_cons, ih, escape_cons special c xs, List.append_assoc]

theorem escape_singleton_self {special : Char → Bool} {c : Char}
    (h : ¬ (special c = true ∧ c ∈ named)) : escape special [c] = [c] := by
  unfold escape
  by_cases hspecial : special c = true
  · have hnamed : c ∉ named := by
      intro hmem
      exact h ⟨hspecial, hmem⟩
    simp only [named, List.mem_cons, List.not_mem_nil, or_false, not_or] at hnamed
    rw [if_pos hspecial]
    split <;> simp_all [escape]
  · rw [if_neg hspecial]
    rfl

theorem escape_singleton_named {special : Char → Bool} {c : Char}
    (h : special c = true) (hnamed : c ∈ named) : escape special [c] ∈ writtenNames := by
  simp only [named, List.mem_cons, List.not_mem_nil, or_false] at hnamed
  rcases hnamed with rfl | rfl | rfl | rfl | rfl <;> simp [escape, h, writtenNames]

/-!
# Reading what is written
-/

theorem unescapeFrom_escape_singleton {special : Char → Bool} (h : special '&' = true)
    (offset : Nat) (c : Char) (rest : List Char) :
    unescapeFrom offset none (escape special [c] ++ rest) =
      (c :: ·) <$> unescapeFrom (offset + byteSize (escape special [c])) none rest := by
  by_cases hnamed : special c = true ∧ c ∈ named
  · obtain ⟨hspecial, hmem⟩ := hnamed
    simp only [named, List.mem_cons, List.not_mem_nil, or_false] at hmem
    rcases hmem with rfl | rfl | rfl | rfl | rfl <;>
      simp [escape, hspecial, unescapeFrom, resolve, entity?, byteSize, bind, Except.bind,
        Nat.add_assoc]
  · have hne : c ≠ '&' := by
      rintro rfl
      exact hnamed ⟨h, by simp [named]⟩
    rw [escape_singleton_self hnamed]
    simp [unescapeFrom, hne, byteSize]

theorem unescapeFrom_escape {special : Char → Bool} (h : special '&' = true)
    (offset : Nat) (cs : List Char) :
    unescapeFrom offset none (escape special cs) = .ok cs := by
  induction cs generalizing offset with
  | nil =>
      rfl
  | cons c cs ih =>
      rw [escape_cons, unescapeFrom_escape_singleton h, ih]
      rfl

theorem unescape_escape {special : Char → Bool} (h : special '&' = true) (cs : List Char) :
    unescape (escape special cs) = .ok cs :=
  unescapeFrom_escape h 0 cs

/-!
# What the written form avoids
-/

/-- Among the characters of a reference, only `&` is one that has a name. -/
theorem not_mem_escape {special : Char → Bool} {d : Char}
    (h : special d = true) (hnamed : d ∈ named) (hamp : d ≠ '&') (cs : List Char) :
    d ∉ escape special cs := by
  induction cs with
  | nil =>
      simp [escape]
  | cons c cs ih =>
      rw [escape_cons, List.mem_append]
      rintro (hmem | hmem)
      · by_cases hc : special c = true ∧ c ∈ named
        · have hwritten := escape_singleton_named hc.1 hc.2
          have hplain : ∀ written ∈ writtenNames, ∀ e ∈ named, e ≠ '&' → e ∉ written := by
            simp [writtenNames, named]
          exact hplain _ hwritten d hnamed hamp hmem
        · rw [escape_singleton_self hc, List.mem_singleton] at hmem
          exact hc (hmem ▸ ⟨h, hnamed⟩)
      · exact ih hmem

/-!
# Texts in other places

Whether a text can be read, and as what, does not depend on where it stands. Characters that
neither begin nor end a reference stand for themselves at both ends of it.
-/

theorem toOption_eq_some {ε α : Type} {result : Except ε α} {value : α} :
    result.toOption = some value ↔ result = .ok value := by
  cases result <;> simp [Except.toOption]

theorem toOption_map {ε α β : Type} (f : α → β) (result : Except ε α) :
    (f <$> result).toOption = result.toOption.map f := by
  cases result <;> rfl

theorem toOption_bind {ε α β : Type} (f : α → Except ε β) (result : Except ε α) :
    (result >>= f).toOption = result.toOption.bind fun a => (f a).toOption := by
  cases result <;> rfl

theorem toOption_resolve (start start' : Nat) (name : List Char) :
    (resolve start name).toOption = (resolve start' name).toOption := by
  unfold resolve
  split
  · rfl
  · split <;> rfl

theorem unescapeFrom_cons_plain {c : Char} (h : c ≠ '&') (offset : Nat) (cs : List Char) :
    unescapeFrom offset none (c :: cs) =
      (c :: ·) <$> unescapeFrom (offset + c.utf8Size) none cs := by
  rw [unescapeFrom]
  exact if_neg h

theorem toOption_unescapeFrom : (cs : List Char) → (name? : Option (List Char)) →
    ∀ offset start offset' start' : Nat,
      (unescapeFrom offset (name?.map (start, ·)) cs).toOption =
        (unescapeFrom offset' (name?.map (start', ·)) cs).toOption
  | [], none, _, _, _, _ => rfl
  | [], some _, _, _, _, _ => rfl
  | c :: cs, none, offset, start, offset', start' => by
      by_cases hamp : c = '&'
      · subst hamp
        exact toOption_unescapeFrom cs (some []) _ _ _ _
      · have hrest := toOption_unescapeFrom cs none (offset + c.utf8Size) start
          (offset' + c.utf8Size) start'
        rw [Option.map_none, Option.map_none] at hrest ⊢
        rw [unescapeFrom_cons_plain hamp, unescapeFrom_cons_plain hamp, toOption_map, toOption_map,
          hrest]
  | c :: cs, some name, offset, start, offset', start' => by
      have hrest := toOption_unescapeFrom cs none (offset + c.utf8Size) start
        (offset' + c.utf8Size) start'
      rw [Option.map_none, Option.map_none] at hrest
      rw [Option.map_some, Option.map_some, unescapeFrom, unescapeFrom]
      by_cases hend : c = ';'
      · simp only [hend, if_true, toOption_bind, toOption_map] at hrest ⊢
        rw [hrest, toOption_resolve start start']
      · by_cases hamp : c = '&'
        · simp only [hamp, if_true]
          rfl
        · simp only [hend, hamp, if_false]
          exact toOption_unescapeFrom cs (some (c :: name)) _ _ _ _

theorem unescapeFrom_plain_append {before : List Char} (h : '&' ∉ before) (offset : Nat)
    (cs : List Char) :
    unescapeFrom offset none (before ++ cs) =
      (before ++ ·) <$> unescapeFrom (offset + byteSize before) none cs := by
  induction before generalizing offset with
  | nil =>
      exact (id_map _).symm
  | cons c before ih =>
      rw [List.mem_cons, not_or] at h
      rw [List.cons_append, unescapeFrom_cons_plain (Ne.symm h.1), ih h.2, byteSize, Nat.add_assoc,
        Functor.map_map]
      rfl

theorem unescapeFrom_plain {cs : List Char} (h : '&' ∉ cs) (offset : Nat) :
    unescapeFrom offset none cs = .ok cs := by
  have hcs := unescapeFrom_plain_append h offset []
  rw [List.append_nil] at hcs
  rw [hcs]
  show Except.ok (cs ++ []) = .ok cs
  rw [List.append_nil]

theorem unescapeFrom_unended {cs : List Char} (h : ';' ∉ cs) (offset start : Nat)
    (name : List Char) : (unescapeFrom offset (some (start, name)) cs).toOption = none := by
  induction cs generalizing offset name with
  | nil =>
      rfl
  | cons c cs ih =>
      rw [List.mem_cons, not_or] at h
      rw [unescapeFrom]
      simp only [Ne.symm h.1, if_false]
      split
      · rfl
      · exact ih h.2 _ _

theorem unescapeFrom_append_plain {after : List Char} (hamp : '&' ∉ after) (hend : ';' ∉ after)
    (cs : List Char) (offset : Nat) (name? : Option (Nat × List Char)) :
    (unescapeFrom offset name? (cs ++ after)).toOption =
      (unescapeFrom offset name? cs).toOption.map (· ++ after) := by
  induction cs generalizing offset name? with
  | nil =>
      cases name? with
      | none =>
          have hafter : unescapeFrom offset none after = .ok after := unescapeFrom_plain hamp offset
          rw [List.nil_append, hafter]
          rfl
      | some reference =>
          exact unescapeFrom_unended hend _ _ _
  | cons c cs ih =>
      have hplain : ∀ d : Char,
          ((d :: ·) <$> unescapeFrom (offset + c.utf8Size) none (cs ++ after)).toOption =
            ((d :: ·) <$> unescapeFrom (offset + c.utf8Size) none cs).toOption.map
              (· ++ after) := by
        intro d
        rw [toOption_map, toOption_map, ih, Option.map_map, Option.map_map]
        rfl
      cases name? with
      | none =>
          by_cases h : c = '&'
          · subst h
            exact ih _ _
          · rw [List.cons_append, unescapeFrom_cons_plain h, unescapeFrom_cons_plain h]
            exact hplain c
      | some reference =>
          obtain ⟨start, name⟩ := reference
          rw [List.cons_append, unescapeFrom, unescapeFrom]
          split
          · cases resolve start name.reverse with
            | error fault =>
                rfl
            | ok value =>
                exact hplain value
          · split
            · rfl
            · exact ih _ _

theorem unescape_around {before after : List Char} (hbefore : '&' ∉ before) (hamp : '&' ∉ after)
    (hend : ';' ∉ after) (raw : List Char) :
    (unescape (before ++ raw ++ after)).toOption =
      (unescape raw).toOption.map (before ++ · ++ after) := by
  have hmove := toOption_unescapeFrom raw none (0 + byteSize before) 0 0 0
  rw [Option.map_none] at hmove
  unfold unescape
  rw [unescapeFrom_append_plain hamp hend, unescapeFrom_plain_append hbefore, toOption_map,
    hmove, Option.map_map]
  rfl

/-!
# Trimming

A reference neither begins nor ends in a space, so trimming commutes with writing references.
-/

theorem trimEnd_concat_of_pos {p : Char → Bool} {c : Char} (h : p c = true) (xs : List Char) :
    trimEnd p (xs ++ [c]) = trimEnd p xs := by
  simp [trimEnd, h]

theorem trimEnd_concat_of_neg {p : Char → Bool} {c : Char} (h : p c = false) (xs : List Char) :
    trimEnd p (xs ++ [c]) = xs ++ [c] := by
  simp [trimEnd, h]

section Spaces

variable {special : Char → Bool}

theorem escape_singleton_space (h : ∀ c, isSpace c = true → special c = false) {c : Char}
    (hspace : isSpace c = true) : escape special [c] = [c] := by
  apply escape_singleton_self
  simp [h c hspace]

theorem escape_singleton_ends (special : Char → Bool) {c : Char} (hspace : isSpace c = false) :
    (∃ first more, escape special [c] = first :: more ∧ isSpace first = false) ∧
      ∃ front last, escape special [c] = front ++ [last] ∧ isSpace last = false := by
  by_cases hnamed : special c = true ∧ c ∈ named
  · have hwritten := escape_singleton_named hnamed.1 hnamed.2
    simp only [writtenNames, List.mem_cons, List.not_mem_nil, or_false] at hwritten
    constructor
    · rcases hwritten with h | h | h | h | h <;> exact ⟨'&', _, h, by decide⟩
    · rcases hwritten with h | h | h | h | h
      · exact ⟨['&', 'l', 't'], ';', h, by decide⟩
      · exact ⟨['&', 'g', 't'], ';', h, by decide⟩
      · exact ⟨['&', 'a', 'm', 'p'], ';', h, by decide⟩
      · exact ⟨['&', 'a', 'p', 'o', 's'], ';', h, by decide⟩
      · exact ⟨['&', 'q', 'u', 'o', 't'], ';', h, by decide⟩
  · rw [escape_singleton_self hnamed]
    exact ⟨⟨c, [], rfl, hspace⟩, ⟨[], c, rfl, hspace⟩⟩

theorem trimStart_escape (h : ∀ c, isSpace c = true → special c = false) (cs : List Char) :
    trimStart isSpace (escape special cs) = escape special (trimStart isSpace cs) := by
  induction cs with
  | nil =>
      rfl
  | cons c cs ih =>
      cases hspace : isSpace c with
      | true =>
          rw [escape_cons, escape_singleton_space h hspace]
          simpa [trimStart, hspace] using ih
      | false =>
          obtain ⟨first, more, hfirst, hne⟩ := (escape_singleton_ends special hspace).1
          have hkeep : trimStart isSpace (c :: cs) = c :: cs := by
            simp [trimStart, hspace]
          rw [hkeep, escape_cons, hfirst]
          simp [trimStart, hne]

theorem trimEnd_escape (h : ∀ c, isSpace c = true → special c = false) (cs : List Char) :
    trimEnd isSpace (escape special cs) = escape special (trimEnd isSpace cs) := by
  -- the induction takes characters off the end, as trimming does
  induction hn : cs.length generalizing cs with
  | zero =>
      rw [List.length_eq_zero_iff.mp hn]
      rfl
  | succ n ih =>
      obtain ⟨front, c, rfl⟩ : ∃ front c, cs = front ++ [c] := by
        have hne : cs ≠ [] := by
          rintro rfl
          simp at hn
        exact ⟨cs.dropLast, cs.getLast hne, (List.dropLast_concat_getLast hne).symm⟩
      have hfront : front.length = n := by
        simpa using hn
      cases hspace : isSpace c with
      | true =>
          rw [escape_append, escape_singleton_space h hspace, trimEnd_concat_of_pos hspace,
            trimEnd_concat_of_pos hspace]
          exact ih front hfront
      | false =>
          obtain ⟨more, last, hlast, hne⟩ := (escape_singleton_ends special hspace).2
          rw [escape_append, hlast, ← List.append_assoc, trimEnd_concat_of_neg hne,
            trimEnd_concat_of_neg hspace, escape_append, hlast, List.append_assoc]

theorem trim_escape (h : ∀ c, isSpace c = true → special c = false) (cs : List Char) :
    trim isSpace (escape special cs) = escape special (trim isSpace cs) := by
  unfold trim
  rw [trimStart_escape h, trimEnd_escape h]

end Spaces

end Markup
end XmlShape
