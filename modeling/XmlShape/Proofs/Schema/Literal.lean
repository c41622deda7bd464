import Mathlib.Data.List.Forall2
import Mathlib.Data.Nat.Digits.Defs
import XmlShape.Proofs.Text.Blank
import XmlShape.Schema.Classify

/-!
# Literals

The grammar of the texts that are taken for numbers and truth values, stated apart from the
functions that look for them. Signs and the marks of floating point literals are split off before a
number is read; this finds what the grammar describes because no number begins with a sign or ends
with a mark.
-/

namespace XmlShape

open Text

namespace Literal

/-!
# Grammar
-/

inductive Sign : List Char → Prop
  | none : Sign []
  | plus : Sign ['+']
  | minus : Sign ['-']

structure Digits (ds : List Char) : Prop where
  ne_nil : ds ≠ []
  isDigit : ∀ c ∈ ds, c.isDigit = true

/-- The number that some digits stand for, the last of them being its units. -/
def value (ds : List Char) : Nat :=
  Nat.ofDigits 10 (ds.reverse.map fun c => c.toNat - '0'.toNat)

inductive Integer : List Char → Int → Prop
  | unsigned {ds : List Char} (h : Digits ds) : Integer ds (value ds)
  | plus {ds : List Char} (h : Digits ds) : Integer ('+' :: ds) (value ds)
  | minus {ds : List Char} (h : Digits ds) : Integer ('-' :: ds) (-value ds)

/-- Digits with at most one point, which may have digits on one side only. -/
inductive Mantissa : List Char → Prop
  | whole {ds : List Char} (h : Digits ds) : Mantissa ds
  | pointAfter {ds fs : List Char} (hds : Digits ds) (hfs : ∀ c ∈ fs, c.isDigit = true) :
      Mantissa (ds ++ '.' :: fs)
  | pointBefore {ds fs : List Char} (hds : ∀ c ∈ ds, c.isDigit = true) (hfs : Digits fs) :
      Mantissa (ds ++ '.' :: fs)

inductive Exponent : List Char → Prop
  | none : Exponent []
  | power {e : Char} {sign ds : List Char} (he : e = 'e' ∨ e = 'E') (hsign : Sign sign)
      (hds : Digits ds) : Exponent (e :: (sign ++ ds))

inductive Number : List Char → Prop
  | scaled {ms es : List Char} (hms : Mantissa ms) (hes : Exponent es) : Number (ms ++ es)

def marks : List Char :=
  ['d', 'D', 'f', 'F']

inductive Magnitude : List Char → Prop
  | infinity : Magnitude "Infinity".toList
  | nan : Magnitude "NaN".toList
  | number {cs : List Char} (h : Number cs) : Magnitude cs
  | marked {cs : List Char} {mark : Char} (h : Number cs) (hmark : mark ∈ marks) :
      Magnitude (cs ++ [mark])

inductive Double : List Char → Prop
  | signed {sign cs : List Char} (hsign : Sign sign) (hcs : Magnitude cs) : Double (sign ++ cs)

def AnyCase (word cs : List Char) : Prop :=
  List.Forall₂ (fun letter c => c = letter ∨ c = letter.toUpper) word cs

def Truth (cs : List Char) : Prop :=
  AnyCase "true".toList cs ∨ AnyCase "false".toList cs

/-!
# Signs
-/

/-- The text does not begin with a sign, so that a sign before it is the one that is split off. -/
def Unsigned (cs : List Char) : Prop :=
  ∀ c ∈ cs.head?, c ≠ '+' ∧ c ≠ '-'

theorem splitSign_of_unsigned {cs : List Char} (h : Unsigned cs) : splitSign cs = (false, cs) := by
  unfold splitSign
  split
  · exact absurd rfl (h '+' rfl).1
  · exact absurd rfl (h '-' rfl).2
  · rfl

theorem exists_sign (cs : List Char) : ∃ sign, Sign sign ∧ cs = sign ++ (splitSign cs).2 := by
  unfold splitSign
  split
  · exact ⟨['+'], .plus, rfl⟩
  · exact ⟨['-'], .minus, rfl⟩
  · exact ⟨[], .none, rfl⟩

theorem splitSign_append {sign cs : List Char} (hsign : Sign sign) (hcs : Unsigned cs) :
    (splitSign (sign ++ cs)).2 = cs := by
  cases hsign with
  | none =>
      rw [List.nil_append, splitSign_of_unsigned hcs]
  | plus =>
      rfl
  | minus =>
      rfl

theorem unsigned_of_isDigit {c : Char} {cs : List Char} (h : c.isDigit = true) :
    Unsigned (c :: cs) := by
  intro d hd
  cases hd
  constructor
  · rintro rfl
    cases h
  · rintro rfl
    cases h

theorem Digits.unsigned {ds : List Char} (h : Digits ds) : Unsigned ds := by
  cases ds with
  | nil =>
      exact absurd rfl h.ne_nil
  | cons c cs =>
      exact unsigned_of_isDigit (h.isDigit c List.mem_cons_self)

/-!
# Digits and integers
-/

theorem isDigits_iff {ds : List Char} : isDigits ds = true ↔ Digits ds := by
  rw [isDigits, Bool.and_eq_true, List.all_eq_true, Bool.not_eq_true', List.isEmpty_eq_false_iff]
  exact ⟨fun h => ⟨h.1, h.2⟩, fun h => ⟨h.ne_nil, h.isDigit⟩⟩

theorem digitsValue_eq (ds : List Char) : digitsValue ds = value ds := by
  rw [value, Nat.ofDigits_eq_foldr, List.foldr_map, List.foldr_reverse, digitsValue]
  congr 1
  funext n c
  simp [Nat.mul_comm, Nat.add_comm]

theorem integer_iff {cs : List Char} {i : Int} :
    Integer cs i ↔ Digits (splitSign cs).2 ∧
      i = if (splitSign cs).1 then -(value (splitSign cs).2 : Int) else value (splitSign cs).2 := by
  constructor
  · intro h
    cases h with
    | unsigned h =>
        rw [splitSign_of_unsigned h.unsigned]
        exact ⟨h, rfl⟩
    | plus h =>
        exact ⟨h, rfl⟩
    | minus h =>
        exact ⟨h, rfl⟩
  · rintro ⟨hdigits, rfl⟩
    revert hdigits
    unfold splitSign
    split
    · exact .plus
    · exact .minus
    · exact .unsigned

def Integer32 (cs : List Char) : Prop :=
  ∃ i, Integer cs i ∧ -2 ^ 31 ≤ i ∧ i ≤ 2 ^ 31 - 1

theorem isInteger_iff {cs : List Char} : isInteger cs = true ↔ Integer32 cs := by
  have hbound : ∀ (negative : Bool) (n : Nat),
      n ≤ (if negative then Nat.pow 2 31 else Nat.pow 2 31 - 1) ↔
        -2 ^ 31 ≤ (if negative then -(n : Int) else n) ∧
          (if negative then -(n : Int) else n) ≤ 2 ^ 31 - 1 := by
    intro negative n
    have hpow : Nat.pow 2 31 = 2147483648 := rfl
    rw [hpow]
    cases negative <;> simp
  rw [isInteger, Integer32]
  simp only [integer_iff, Bool.and_eq_true, isDigits_iff, decide_eq_true_eq, digitsValue_eq, hbound]
  constructor
  · rintro ⟨hdigits, hvalue⟩
    exact ⟨_, ⟨hdigits, rfl⟩, hvalue⟩
  · rintro ⟨i, ⟨hdigits, rfl⟩, hvalue⟩
    exact ⟨hdigits, hvalue⟩

/-!
# Numbers
-/

theorem isExponent_iff {cs : List Char} : isExponent cs = true ↔ Exponent cs := by
  cases cs with
  | nil =>
      exact ⟨fun _ => .none, fun _ => rfl⟩
  | cons e cs =>
      rw [isExponent, Bool.and_eq_true, Bool.or_eq_true, beq_iff_eq, beq_iff_eq, isDigits_iff]
      constructor
      · rintro ⟨he, hdigits⟩
        obtain ⟨sign, hsign, hcs⟩ := exists_sign cs
        rw [hcs]
        exact .power he hsign hdigits
      · intro h
        cases h with
        | power he hsign hds =>
            rw [splitSign_append hsign hds.unsigned]
            exact ⟨he, hds⟩

theorem takeWhile_digits {ds rest : List Char} (hds : ∀ c ∈ ds, c.isDigit = true)
    (hrest : ∀ c ∈ rest.head?, c.isDigit = false) :
    (ds ++ rest).takeWhile (·.isDigit) = ds ∧ (ds ++ rest).dropWhile (·.isDigit) = rest := by
  have hnone : rest.takeWhile (·.isDigit) = [] := by
    cases rest with
    | nil =>
        rfl
    | cons c rest =>
        exact List.takeWhile_cons_of_neg (by simp [hrest c rfl])
  rw [List.takeWhile_append_of_pos hds, List.dropWhile_append_of_pos hds, hnone,
    dropWhile_eq_self hrest, List.append_nil]
  exact ⟨rfl, rfl⟩

theorem Exponent.head {es : List Char} (h : Exponent es) :
    ∀ c ∈ es.head?, c.isDigit = false ∧ c ≠ '.' := by
  cases h with
  | none =>
      intro c hc
      cases hc
  | power he _ _ =>
      intro c hc
      cases hc
      rcases he with rfl | rfl <;> decide

theorem Mantissa.exists_head {ms : List Char} (h : Mantissa ms) :
    ∃ c rest, ms = c :: rest ∧ (c.isDigit = true ∨ c = '.') := by
  have hpoint : ∀ ds fs : List Char, (∀ c ∈ ds, c.isDigit = true) →
      ∃ c rest, ds ++ '.' :: fs = c :: rest ∧ (c.isDigit = true ∨ c = '.') := by
    intro ds fs hds
    cases ds with
    | nil =>
        exact ⟨'.', fs, rfl, .inr rfl⟩
    | cons c ds =>
        exact ⟨c, ds ++ '.' :: fs, rfl, .inl (hds c List.mem_cons_self)⟩
  cases h with
  | whole h =>
      cases ms with
      | nil =>
          exact absurd rfl h.ne_nil
      | cons c rest =>
          exact ⟨c, rest, rfl, .inl (h.isDigit c List.mem_cons_self)⟩
  | pointAfter hds _ =>
      exact hpoint _ _ hds.isDigit
  | pointBefore hds _ =>
      exact hpoint _ _ hds

theorem isDecimal_point {ds fs es : List Char} (hds : ∀ c ∈ ds, c.isDigit = true)
    (hfs : ∀ c ∈ fs, c.isDigit = true) (hes : ∀ c ∈ es.head?, c.isDigit = false) :
    isDecimal (ds ++ '.' :: (fs ++ es)) = (!(ds.isEmpty && fs.isEmpty) && isExponent es) := by
  have hpoint : ∀ c ∈ ('.' :: (fs ++ es)).head?, c.isDigit = false := by
    intro c hc
    cases hc
    rfl
  obtain ⟨htake, hdrop⟩ := takeWhile_digits hds hpoint
  obtain ⟨htake', hdrop'⟩ := takeWhile_digits hfs hes
  simp only [isDecimal, htake, hdrop, htake', hdrop']

theorem isDecimal_whole {ds es : List Char} (hds : ∀ c ∈ ds, c.isDigit = true)
    (hes : ∀ c ∈ es.head?, c.isDigit = false ∧ c ≠ '.') :
    isDecimal (ds ++ es) = (!ds.isEmpty && isExponent es) := by
  obtain ⟨htake, hdrop⟩ := takeWhile_digits hds fun c hc => (hes c hc).1
  simp only [isDecimal, htake, hdrop]
  split
  · exact absurd rfl (hes '.' rfl).2
  · rfl

theorem exists_digits (cs : List Char) :
    ∃ ds rest, cs = ds ++ rest ∧ (∀ c ∈ ds, c.isDigit = true) ∧
      ∀ c ∈ rest.head?, c.isDigit = false := by
  refine ⟨cs.takeWhile (·.isDigit), cs.dropWhile (·.isDigit),
    List.takeWhile_append_dropWhile.symm, ?_, ?_⟩
  · intro c hc
    exact List.mem_takeWhile_imp hc
  · intro c hc
    exact eq_false_of_mem_head?_dropWhile hc

theorem number_of_isDecimal {cs : List Char} (h : isDecimal cs = true) : Number cs := by
  obtain ⟨ds, rest, rfl, hds, hrest⟩ := exists_digits cs
  by_cases hpoint : ∃ tail, rest = '.' :: tail
  · obtain ⟨tail, rfl⟩ := hpoint
    obtain ⟨fs, es, rfl, hfs, hes⟩ := exists_digits tail
    rw [isDecimal_point hds hfs hes, Bool.and_eq_true, isExponent_iff] at h
    obtain ⟨hsome, hexponent⟩ := h
    have hms : Mantissa (ds ++ '.' :: fs) := by
      by_cases hnil : ds = []
      · have hne : fs ≠ [] := by
          rintro rfl
          simp [hnil] at hsome
        exact .pointBefore hds ⟨hne, hfs⟩
      · exact .pointAfter ⟨hnil, hds⟩ hfs
    simpa using Number.scaled hms hexponent
  · have hother : ∀ c ∈ rest.head?, c.isDigit = false ∧ c ≠ '.' := by
      intro c hc
      refine ⟨hrest c hc, ?_⟩
      rintro rfl
      exact hpoint (List.head?_eq_some_iff.mp hc)
    rw [isDecimal_whole hds hother, Bool.and_eq_true, isExponent_iff] at h
    obtain ⟨hsome, hexponent⟩ := h
    have hne : ds ≠ [] := by
      simpa using hsome
    exact .scaled (.whole ⟨hne, hds⟩) hexponent

theorem Number.isDecimal {cs : List Char} (h : Number cs) : isDecimal cs = true := by
  cases h with
  | @scaled ms es hms hes =>
      have hexponent : isExponent es = true := isExponent_iff.mpr hes
      have hhead : ∀ c ∈ es.head?, c.isDigit = false := fun c hc => (hes.head c hc).1
      cases hms with
      | whole hds =>
          rw [isDecimal_whole hds.isDigit hes.head, hexponent]
          simp [hds.ne_nil]
      | pointAfter hds hfs =>
          rw [List.append_assoc, List.cons_append, isDecimal_point hds.isDigit hfs hhead,
            hexponent]
          simp [hds.ne_nil]
      | pointBefore hds hfs =>
          rw [List.append_assoc, List.cons_append, isDecimal_point hds hfs.isDigit hhead,
            hexponent]
          simp [hfs.ne_nil]

theorem isDecimal_iff {cs : List Char} : isDecimal cs = true ↔ Number cs :=
  ⟨number_of_isDecimal, Number.isDecimal⟩

/-!
# Marks
-/

theorem characters_around_point {ds fs : List Char} (hds : ∀ c ∈ ds, c.isDigit = true)
    (hfs : ∀ c ∈ fs, c.isDigit = true) {c : Char} (hc : c ∈ ds ++ '.' :: fs) :
    c.isDigit = true ∨ c = '.' := by
  rcases List.mem_append.mp hc with hc | hc
  · exact .inl (hds c hc)
  · rcases List.mem_cons.mp hc with rfl | hc
    · exact .inr rfl
    · exact .inl (hfs c hc)

theorem Mantissa.characters {ms : List Char} (h : Mantissa ms) {c : Char} (hc : c ∈ ms) :
    c.isDigit = true ∨ c = '.' := by
  cases h with
  | whole hds =>
      exact .inl (hds.isDigit c hc)
  | pointAfter hds hfs =>
      exact characters_around_point hds.isDigit hfs hc
  | pointBefore hds hfs =>
      exact characters_around_point hds hfs.isDigit hc

theorem Sign.characters {sign : List Char} (h : Sign sign) {c : Char} (hc : c ∈ sign) :
    c = '+' ∨ c = '-' := by
  cases h with
  | none =>
      cases hc
  | plus =>
      exact .inl (List.mem_singleton.mp hc)
  | minus =>
      exact .inr (List.mem_singleton.mp hc)

theorem Exponent.characters {es : List Char} (h : Exponent es) {c : Char} (hc : c ∈ es) :
    c.isDigit = true ∨ c ∈ ['e', 'E', '+', '-'] := by
  cases h with
  | none =>
      cases hc
  | power he hsign hds =>
      rcases List.mem_cons.mp hc with rfl | hc
      · exact .inr (by rcases he with rfl | rfl <;> decide)
      · rcases List.mem_append.mp hc with hc | hc
        · exact .inr (by rcases hsign.characters hc with rfl | rfl <;> decide)
        · exact .inl (hds.isDigit c hc)

theorem Number.characters {cs : List Char} (h : Number cs) {c : Char} (hc : c ∈ cs) :
    c.isDigit = true ∨ c ∈ ['.', 'e', 'E', '+', '-'] := by
  cases h with
  | scaled hms hes =>
      rcases List.mem_append.mp hc with hc | hc
      · rcases hms.characters hc with hdigit | rfl
        · exact .inl hdigit
        · exact .inr List.mem_cons_self
      · exact (hes.characters hc).imp_right (List.mem_cons_of_mem '.')

theorem Number.not_mem_marks {cs : List Char} (h : Number cs) {c : Char} (hc : c ∈ cs) :
    c ∉ marks := by
  intro hmark
  simp only [marks, List.mem_cons, List.not_mem_nil, or_false] at hmark
  rcases h.characters hc with hdigit | hother
  · rcases hmark with rfl | rfl | rfl | rfl <;> cases hdigit
  · rcases hmark with rfl | rfl | rfl | rfl <;> simp at hother

theorem isDecimal_dropMark_iff {cs : List Char} :
    isDecimal (dropMark cs) = true ↔
      Number cs ∨ ∃ ds mark, Number ds ∧ mark ∈ marks ∧ cs = ds ++ [mark] := by
  rw [isDecimal_iff]
  rcases List.eq_nil_or_concat cs with rfl | ⟨ds, c, rfl⟩
  · simp [dropMark]
  · rw [List.concat_eq_append]
    have hdrop : dropMark (ds ++ [c]) = if c ∈ marks then ds else ds ++ [c] := by
      simp [dropMark, marks]
    rw [hdrop]
    by_cases hc : c ∈ marks
    · rw [if_pos hc]
      constructor
      · intro h
        exact .inr ⟨ds, c, h, hc, rfl⟩
      · rintro (h | ⟨ds', mark, h, _, heq⟩)
        · exact absurd hc (h.not_mem_marks (by simp))
        · rw [(List.append_inj' heq rfl).1]
          exact h
    · rw [if_neg hc]
      constructor
      · exact .inl
      · rintro (h | ⟨ds', mark, _, hmark, heq⟩)
        · exact h
        · cases (List.append_inj' heq rfl).2
          exact absurd hmark hc

/-!
# Doubles
-/

theorem Number.unsigned {cs : List Char} (h : Number cs) : Unsigned cs := by
  cases h with
  | scaled hms _ =>
      obtain ⟨c, rest, rfl, hdigit | rfl⟩ := hms.exists_head
      · exact unsigned_of_isDigit hdigit
      · intro c hc
        cases hc
        decide

theorem Number.ne_nil {cs : List Char} (h : Number cs) : cs ≠ [] := by
  cases h with
  | scaled hms _ =>
      obtain ⟨c, rest, rfl, _⟩ := hms.exists_head
      exact List.cons_ne_nil c _

theorem Magnitude.unsigned {cs : List Char} (h : Magnitude cs) : Unsigned cs := by
  cases h with
  | infinity =>
      intro c hc
      cases hc
      decide
  | nan =>
      intro c hc
      cases hc
      decide
  | number h =>
      exact h.unsigned
  | @marked ds mark h _ =>
      obtain ⟨c, rest, hds⟩ := List.exists_cons_of_ne_nil h.ne_nil
      subst hds
      exact h.unsigned

theorem double_iff {cs : List Char} : Double cs ↔ Magnitude (splitSign cs).2 := by
  constructor
  · intro h
    cases h with
    | signed hsign hcs =>
        rw [splitSign_append hsign hcs.unsigned]
        exact hcs
  · intro h
    obtain ⟨sign, hsign, hcs⟩ := exists_sign cs
    rw [hcs]
    exact .signed hsign h

theorem isDouble_iff {cs : List Char} : isDouble cs = true ↔ Double cs := by
  rw [double_iff, isDouble, Bool.or_eq_true, Bool.or_eq_true, beq_iff_eq, beq_iff_eq,
    isDecimal_dropMark_iff]
  constructor
  · rintro ((hword | hword) | hnumber | ⟨ds, mark, hds, hmark, hcs⟩)
    · rw [hword]
      exact .infinity
    · rw [hword]
      exact .nan
    · exact .number hnumber
    · rw [hcs]
      exact .marked hds hmark
  · intro h
    generalize (splitSign cs).2 = ds at h ⊢
    cases h with
    | infinity =>
        exact .inl (.inl rfl)
    | nan =>
        exact .inl (.inr rfl)
    | number h =>
        exact .inr (.inl h)
    | marked h hmark =>
        exact .inr (.inr ⟨_, _, h, hmark, rfl⟩)

/-!
# Truth values
-/

theorem isLower_iff {c : Char} : c.isLower = true ↔ 97 ≤ c.toNat ∧ c.toNat ≤ 122 := by
  change (decide _ && decide _) = true ↔ _
  rw [Bool.and_eq_true, decide_eq_true_iff, decide_eq_true_iff]
  rfl

theorem toNat_toLower (c : Char) :
    c.toLower.toNat = if 65 ≤ c.toNat ∧ c.toNat ≤ 90 then c.toNat + 32 else c.toNat := by
  delta Char.toLower
  split
  · next h =>
      have hcode : 65 ≤ c.toNat ∧ c.toNat ≤ 90 := h
      have hadd : (c.val + 32).toNat = (c.toNat + 32) % 2 ^ 32 := UInt32.toNat_add c.val 32
      rw [if_pos hcode]
      exact hadd.trans (by omega)
  · next h =>
      exact (if_neg h).symm

theorem toNat_toUpper (c : Char) :
    c.toUpper.toNat = if 97 ≤ c.toNat ∧ c.toNat ≤ 122 then c.toNat - 32 else c.toNat := by
  delta Char.toUpper
  split
  · next h =>
      have hcode : 97 ≤ c.toNat ∧ c.toNat ≤ 122 := h
      -- The way down to the capitals is added, modulo the number of words of 32 bits.
      have hadd : (c.val + (65 - 97)).toNat = (c.toNat + (2 ^ 32 - 32)) % 2 ^ 32 :=
        UInt32.toNat_add c.val (65 - 97)
      rw [if_pos hcode]
      exact hadd.trans (by omega)
  · next h =>
      exact (if_neg h).symm

theorem toLower_eq_iff {c letter : Char} (h : letter.isLower = true) :
    c.toLower = letter ↔ c = letter ∨ c = letter.toUpper := by
  have hletter : 97 ≤ letter.toNat ∧ letter.toNat ≤ 122 := isLower_iff.mp h
  rw [← Char.toNat_inj, ← Char.toNat_inj, ← Char.toNat_inj, toNat_toLower, toNat_toUpper,
    if_pos hletter]
  split <;> omega

theorem map_toLower_eq_iff {word : List Char} (hword : ∀ letter ∈ word, letter.isLower = true)
    (cs : List Char) : cs.map (·.toLower) = word ↔ AnyCase word cs := by
  induction word generalizing cs with
  | nil =>
      rw [List.map_eq_nil_iff, AnyCase, List.forall₂_nil_left_iff]
  | cons letter word ih =>
      have hletter := hword letter List.mem_cons_self
      have hrest : ∀ letter ∈ word, letter.isLower = true := fun other hother =>
        hword other (List.mem_cons_of_mem letter hother)
      cases cs with
      | nil =>
          rw [AnyCase, List.forall₂_nil_right_iff, List.map_nil]
          exact eq_comm
      | cons c cs =>
          have hcons : AnyCase (letter :: word) (c :: cs) ↔
              (c = letter ∨ c = letter.toUpper) ∧ AnyCase word cs :=
            List.forall₂_cons
          rw [List.map_cons, List.cons.injEq, toLower_eq_iff hletter, ih hrest, hcons]

theorem isTruthValue_iff {cs : List Char} : isTruthValue cs = true ↔ Truth cs := by
  have htrue : ∀ letter ∈ "true".toList, letter.isLower = true := by
    simp
  have hfalse : ∀ letter ∈ "false".toList, letter.isLower = true := by
    simp
  rw [isTruthValue, Bool.or_eq_true, beq_iff_eq, beq_iff_eq, map_toLower_eq_iff htrue,
    map_toLower_eq_iff hfalse, Truth]

end Literal

/-!
# Classification
-/

open Literal

theorem classifyChars_eq (truthValues : Bool) (cs : List Char) :
    classifyChars truthValues cs =
      if isInteger cs then .integer
      else if isDouble cs then .double
      else if truthValues && isTruthValue cs then .boolean
      else .string := by
  cases cs with
  | nil =>
      have hdouble : isDouble [] = false := rfl
      have htruth : isTruthValue [] = false := rfl
      rw [hdouble, htruth, Bool.and_false]
      rfl
  | cons c cs =>
      rfl

/-- The type of a text is that of the first grammar that has it, without the blanks around it. -/
theorem classifyText_grammar (truthValues : Bool) (text : String) :
    ∃ cs, (∀ stripped, IsStripped isBlank text.toList stripped ↔ stripped = cs) ∧
      (classifyText truthValues text = .integer ↔ Integer32 cs) ∧
      (classifyText truthValues text = .double ↔ ¬ Integer32 cs ∧ Double cs) ∧
      (classifyText truthValues text = .boolean ↔
        ¬ Integer32 cs ∧ ¬ Double cs ∧ truthValues = true ∧ Truth cs) ∧
      (classifyText truthValues text = .string ↔
        ¬ Integer32 cs ∧ ¬ Double cs ∧ ¬ (truthValues = true ∧ Truth cs)) := by
  refine ⟨trim isBlank text.toList, fun _ => isStripped_iff, ?_⟩
  rw [classifyText, classifyChars_eq, ← isInteger_iff, ← isDouble_iff, ← isTruthValue_iff]
  cases isInteger (trim isBlank text.toList) <;> cases isDouble (trim isBlank text.toList) <;>
    cases truthValues <;> cases isTruthValue (trim isBlank text.toList) <;> decide

end XmlShape
