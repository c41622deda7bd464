import XmlShape.Markup.Attribute
import XmlShape.Proofs.Markup.Escape
import XmlShape.Proofs.Markup.Run

/-!
# Tags

Tags are written from a name and attributes with distinct keys. A written tag is read as one
token, and what is between its `<` and its `>` gives the name and the attributes back.
-/

namespace XmlShape
namespace Markup

open Text

/-!
# Names
-/

def isNameChar (c : Char) : Bool :=
  !(isSpace c || ['<', '>', '/', '=', '&', '\x22', '\x27'].contains c)

/-- The name of an element or the key of an attribute. It does not begin as a declaration or a
processing instruction does. -/
structure PlainName where
  chars : List Char
  nonempty : chars ≠ []
  plain : chars.all isNameChar = true
  beginning : chars.head? ≠ some '!' ∧ chars.head? ≠ some '?'

theorem isNameChar_iff {c : Char} :
    isNameChar c = true ↔
      isSpace c = false ∧ c ≠ '<' ∧ c ≠ '>' ∧ c ≠ '/' ∧ c ≠ '=' ∧ c ≠ '&' ∧ c ≠ '\x22' ∧
        c ≠ '\x27' := by
  simp [isNameChar]

theorem PlainName.isNameChar (name : PlainName) : ∀ c ∈ name.chars, isNameChar c = true :=
  List.all_eq_true.mp name.plain

theorem PlainName.not_space (name : PlainName) : ∀ c ∈ name.chars, isSpace c = false := by
  intro c hc
  exact (isNameChar_iff.mp (name.isNameChar c hc)).1

/-!
# Writing tags
-/

inductive Quote where
  | single
  | double
deriving DecidableEq, Repr

def Quote.char : Quote → Char
  | .single => '\x27'
  | .double => '\x22'

@[simp] theorem Quote.utf8Size_char (quote : Quote) : quote.char.utf8Size = 1 := by
  cases quote <;> rfl

def Quote.special (quote : Quote) (c : Char) : Bool :=
  c == '&' || c == quote.char

structure WrittenAttribute where
  key : PlainName
  quote : Quote
  value : List Char

namespace WrittenAttribute

def pair (a : WrittenAttribute) : String × String :=
  (String.ofList a.key.chars, String.ofList a.value)

def quoted (a : WrittenAttribute) : List Char :=
  a.quote.char :: (escape a.quote.special a.value ++ [a.quote.char])

def written (a : WrittenAttribute) : List Char :=
  ' ' :: (a.key.chars ++ '=' :: a.quoted)

end WrittenAttribute

structure OpeningTag where
  name : PlainName
  attributes : List WrittenAttribute
  distinct : (attributes.map (·.key.chars)).Nodup

def OpeningTag.inside (tag : OpeningTag) : List Char :=
  tag.name.chars ++ tag.attributes.flatMap (·.written)

/-!
# Written tags as tokens
-/

theorem PlainName.insideTag (name : PlainName) : InsideTag name.chars := by
  apply insideTag_plain
  intro c hc
  have hplain := isNameChar_iff.mp (name.isNameChar c hc)
  exact ⟨hplain.2.2.1, hplain.2.2.2.2.2.2.1, hplain.2.2.2.2.2.2.2⟩

theorem Quote.char_not_mem_escape (quote : Quote) (cs : List Char) :
    quote.char ∉ escape quote.special cs := by
  apply not_mem_escape
  · simp [Quote.special]
  · cases quote <;> decide
  · cases quote <;> decide

theorem WrittenAttribute.insideTag (a : WrittenAttribute) : InsideTag a.written := by
  have hspace : InsideTag [' '] := insideTag_plain (by simp)
  have hequals : InsideTag ['='] := insideTag_plain (by simp)
  have hquote : a.quote.char = '\x22' ∨ a.quote.char = '\x27' := by
    cases a.quote
    · exact Or.inr rfl
    · exact Or.inl rfl
  have hquoted : InsideTag a.quoted :=
    insideTag_quoted hquote (a.quote.char_not_mem_escape a.value)
  exact insideTag_append hspace (insideTag_append a.key.insideTag (insideTag_append hequals hquoted))

theorem insideTag_attributes (attributes : List WrittenAttribute) :
    InsideTag (attributes.flatMap (·.written)) := by
  induction attributes with
  | nil =>
      exact insideTag_nil
  | cons a attributes ih =>
      rw [List.flatMap_cons]
      exact insideTag_append a.insideTag ih

theorem OpeningTag.insideTag (tag : OpeningTag) : InsideTag tag.inside :=
  insideTag_append tag.name.insideTag (insideTag_attributes tag.attributes)

theorem PlainName.exists_first (name : PlainName) :
    ∃ c cs, name.chars = c :: cs ∧ c ≠ '/' ∧ c ≠ '!' ∧ c ≠ '?' := by
  cases hchars : name.chars with
  | nil =>
      exact absurd hchars name.nonempty
  | cons c cs =>
      have hplain := isNameChar_iff.mp (name.isNameChar c (by simp [hchars]))
      have hbeginning := name.beginning
      rw [hchars] at hbeginning
      refine ⟨c, cs, rfl, hplain.2.2.2.1, ?_, ?_⟩
      · simpa using hbeginning.1
      · simpa using hbeginning.2

theorem OpeningTag.getLast?_inside (tag : OpeningTag) : tag.inside.getLast? ≠ some '/' := by
  intro hlast
  cases hattributes : tag.attributes.getLast? with
  | none =>
      have hnone : tag.attributes = [] := List.getLast?_eq_none_iff.mp hattributes
      have hmem : '/' ∈ tag.name.chars := by
        apply List.mem_of_getLast?
        simpa [OpeningTag.inside, hnone] using hlast
      exact absurd rfl (isNameChar_iff.mp (tag.name.isNameChar _ hmem)).2.2.2.1
  | some a =>
      obtain ⟨front, hfront⟩ := List.getLast?_eq_some_iff.mp hattributes
      have hquote : a.quote.char = '/' := by
        simpa [OpeningTag.inside, hfront, WrittenAttribute.written, WrittenAttribute.quoted,
          List.getLast?_append, List.getLast?_cons] using hlast
      cases hq : a.quote <;> rw [hq] at hquote <;> exact absurd hquote (by decide)

theorem tagToken_of_ne {c : Char} (h : c ≠ '/') (cs : List Char) :
    tagToken (c :: cs) =
      if (c :: cs).getLast? = some '/' then .emptyTag (c :: cs).dropLast
      else .startTag (c :: cs) := by
  unfold tagToken
  split
  · next heq =>
    exact absurd (List.cons.inj heq).1 h
  · rfl

theorem OpeningTag.spells_start (tag : OpeningTag) :
    Spells ('<' :: (tag.inside ++ ['>'])) (.startTag tag.inside) := by
  obtain ⟨c, cs, hchars, hslash, hbang, hmark⟩ := tag.name.exists_first
  have hinside : tag.inside = c :: (cs ++ tag.attributes.flatMap (·.written)) := by
    rw [OpeningTag.inside, hchars, List.cons_append]
  have hspells := spells_tag hbang hmark (hinside ▸ tag.insideTag)
  rw [tagToken_of_ne hslash, ← hinside, if_neg tag.getLast?_inside] at hspells
  exact hspells

theorem OpeningTag.spells_empty (tag : OpeningTag) :
    Spells ('<' :: (tag.inside ++ ['/', '>'])) (.emptyTag tag.inside) := by
  obtain ⟨c, cs, hchars, hslash, hbang, hmark⟩ := tag.name.exists_first
  have hinside : tag.inside ++ ['/'] = c :: (cs ++ tag.attributes.flatMap (·.written) ++ ['/']) := by
    rw [OpeningTag.inside, hchars, List.cons_append, List.cons_append]
  have hclosed : InsideTag (tag.inside ++ ['/']) :=
    insideTag_append tag.insideTag (insideTag_plain (by simp))
  have hspells := spells_tag hbang hmark (hinside ▸ hclosed)
  rw [tagToken_of_ne hslash, ← hinside, if_pos List.getLast?_concat, List.dropLast_concat,
    List.append_assoc] at hspells
  exact hspells

theorem PlainName.endName_chars (name : PlainName) : endName name.chars = name.chars := by
  have hne := name.nonempty
  have hlast : isSpace (name.chars.getLast hne) = false :=
    name.not_space _ (List.getLast_mem hne)
  have hsome : ¬ name.chars.all isSpace = true := by
    intro hall
    have hspace := List.all_eq_true.mp hall _ (List.getLast_mem hne)
    rw [hlast] at hspace
    cases hspace
  rw [endName, if_neg hsome, ← List.dropLast_concat_getLast hne]
  exact trimEnd_concat_of_neg hlast _

theorem PlainName.spells_end (name : PlainName) :
    Spells ('<' :: '/' :: (name.chars ++ ['>'])) (.endTag name.chars) := by
  have hslash : InsideTag ['/'] := insideTag_plain (by simp)
  have hinside : InsideTag ('/' :: name.chars) := insideTag_append hslash name.insideTag
  have hspells := spells_tag (by decide) (by decide) hinside
  rw [tagToken, name.endName_chars] at hspells
  exact hspells

/-!
# Reading tags back

The name ends at the space before the first attribute or with the tag. Each attribute takes the
reader from one gap to the next, and its key is new because keys are distinct.
-/

theorem takeWhile_inside (tag : OpeningTag) :
    tagName tag.inside = tag.name.chars ∧
      (tag.inside.dropWhile fun c => !isSpace c) = tag.attributes.flatMap (·.written) := by
  have hname : ∀ c ∈ tag.name.chars, (!isSpace c) = true := by
    intro c hc
    simp [tag.name.not_space c hc]
  unfold tagName OpeningTag.inside
  rw [List.takeWhile_append_of_pos hname, List.dropWhile_append_of_pos hname]
  cases tag.attributes with
  | nil =>
      simp
  | cons a attributes =>
      simp [WrittenAttribute.written, isSpace]

section Reading

variable (offset : Nat) (seen : List (List Char × Nat))

theorem attributesFrom_gap_space (rest : List Char) :
    attributesFrom offset seen .gap (' ' :: rest) = attributesFrom (offset + 1) seen .gap rest :=
  rfl

theorem attributesFrom_gap_key {c : Char} (h : isSpace c = false) (rest : List Char) :
    attributesFrom offset seen .gap (c :: rest) =
      attributesFrom (offset + c.utf8Size) seen (.key offset [c]) rest := by
  rw [attributesFrom]
  simp only [h, Bool.false_eq_true, if_false]

theorem attributesFrom_key (start : Nat) (raw : List Char) {cs : List Char}
    (h : ∀ c ∈ cs, isNameChar c = true) (rest : List Char) :
    attributesFrom offset seen (.key start raw) (cs ++ rest) =
      attributesFrom (offset + byteSize cs) seen (.key start (cs.reverse ++ raw)) rest := by
  induction cs generalizing offset raw with
  | nil =>
      rfl
  | cons c cs ih =>
      have hplain := isNameChar_iff.mp (h c List.mem_cons_self)
      have htail : ∀ d ∈ cs, isNameChar d = true := by
        intro d hd
        exact h d (List.mem_cons_of_mem c hd)
      have hequals : c ≠ '=' := hplain.2.2.2.2.1
      rw [List.cons_append, attributesFrom]
      simp only [hequals, hplain.1, if_false, Bool.false_eq_true]
      rw [ih _ _ htail]
      simp [byteSize, Nat.add_assoc]

theorem attributesFrom_key_equals (start : Nat) (raw : List Char)
    (h : seen.lookup raw.reverse = none) (rest : List Char) :
    attributesFrom offset seen (.key start raw) ('=' :: rest) =
      attributesFrom (offset + 1) ((raw.reverse, start) :: seen) (.quote raw.reverse) rest := by
  have hclose : closeKey seen start raw.reverse = .ok ((raw.reverse, start) :: seen) := by
    rw [closeKey, h]
  rw [attributesFrom]
  simp only [if_true, hclose]
  rfl

theorem attributesFrom_quote (key : List Char) (quote : Quote) (rest : List Char) :
    attributesFrom offset seen (.quote key) (quote.char :: rest) =
      attributesFrom (offset + 1) seen (.value key quote.char []) rest := by
  cases quote <;> rfl

theorem attributesFrom_value (key : List Char) {quote : Char} (raw : List Char) {cs : List Char}
    (h : quote ∉ cs) (rest : List Char) :
    attributesFrom offset seen (.value key quote raw) (cs ++ rest) =
      attributesFrom (offset + byteSize cs) seen (.value key quote (cs.reverse ++ raw)) rest := by
  induction cs generalizing offset raw with
  | nil =>
      rfl
  | cons c cs ih =>
      have hne : c ≠ quote := by
        rintro rfl
        exact h List.mem_cons_self
      have htail : quote ∉ cs := by
        intro hmem
        exact h (List.mem_cons_of_mem c hmem)
      rw [List.cons_append, attributesFrom]
      simp only [hne, if_false]
      rw [ih _ _ htail]
      simp [byteSize, Nat.add_assoc]

theorem attributesFrom_value_quote (key : List Char) (quote : Quote) {raw value : List Char}
    (h : unescape raw.reverse = .ok value) (rest : List Char) :
    attributesFrom offset seen (.value key quote.char raw) (quote.char :: rest) =
      ((String.ofList key, String.ofList value) :: ·) <$>
        attributesFrom (offset + 1) seen .gap rest := by
  rw [attributesFrom]
  simp only [if_true, h, Quote.utf8Size_char]
  rfl

theorem attributesFrom_written (a : WrittenAttribute) (h : seen.lookup a.key.chars = none)
    (rest : List Char) :
    attributesFrom offset seen .gap (a.written ++ rest) =
      (a.pair :: ·) <$> attributesFrom (offset + byteSize a.written)
        ((a.key.chars, offset + 1) :: seen) .gap rest := by
  obtain ⟨c, cs, hkey, _⟩ := a.key.exists_first
  have hc : isSpace c = false := a.key.not_space c (by simp [hkey])
  have hcs : ∀ d ∈ cs, isNameChar d = true := by
    intro d hd
    exact a.key.isNameChar d (by simp [hkey, hd])
  have hraw : (cs.reverse ++ [c]).reverse = a.key.chars := by
    simp [hkey]
  have hvalue : unescape (escape a.quote.special a.value) = .ok a.value :=
    unescape_escape rfl a.value
  have hsize : offset + byteSize a.written =
      offset + 1 + c.utf8Size + byteSize cs + 1 + 1 +
        byteSize (escape a.quote.special a.value) + 1 := by
    have hspace : ' '.utf8Size = 1 := rfl
    have hequals : '='.utf8Size = 1 := rfl
    simp only [WrittenAttribute.written, WrittenAttribute.quoted, hkey, byteSize,
      byteSize_append, hspace, hequals, Quote.utf8Size_char]
    omega
  rw [hsize]
  simp only [WrittenAttribute.written, WrittenAttribute.quoted, hkey, List.cons_append,
    List.append_assoc, List.nil_append]
  rw [attributesFrom_gap_space, attributesFrom_gap_key _ _ hc,
    attributesFrom_key _ _ _ _ hcs, attributesFrom_key_equals _ _ _ _ (hraw ▸ h),
    attributesFrom_quote, attributesFrom_value _ _ _ _ (a.quote.char_not_mem_escape a.value),
    attributesFrom_value_quote _ _ _ _ (by simpa using hvalue), hraw]
  simp [WrittenAttribute.pair, hkey]

end Reading

theorem attributesFrom_attributes (offset : Nat) (seen : List (List Char × Nat))
    (attributes : List WrittenAttribute) (hdistinct : (attributes.map (·.key.chars)).Nodup)
    (hseen : ∀ a ∈ attributes, seen.lookup a.key.chars = none) :
    attributesFrom offset seen .gap (attributes.flatMap (·.written)) =
      .ok (attributes.map (·.pair)) := by
  induction attributes generalizing offset seen with
  | nil =>
      rfl
  | cons a attributes ih =>
      rw [List.map_cons, List.nodup_cons] at hdistinct
      have hnew : ∀ b ∈ attributes,
          ((a.key.chars, offset + 1) :: seen).lookup b.key.chars = none := by
        intro b hb
        have hne : b.key.chars ≠ a.key.chars := by
          intro heq
          exact hdistinct.1 (heq ▸ List.mem_map_of_mem hb)
        rw [List.lookup_cons, beq_eq_false_iff_ne.mpr hne]
        exact hseen b (List.mem_cons_of_mem a hb)
      rw [List.flatMap_cons, attributesFrom_written offset seen a (hseen a List.mem_cons_self),
        ih _ _ hdistinct.2 hnew]
      rfl

theorem OpeningTag.tagAttributes_inside (tag : OpeningTag) :
    tagAttributes tag.inside = .ok (tag.attributes.map (·.pair)) := by
  unfold tagAttributes
  rw [(takeWhile_inside tag).2]
  exact attributesFrom_attributes _ _ _ tag.distinct (by simp)

end Markup
end XmlShape
