import XmlShape.Proofs.Naming.Chain
import XmlShape.Proofs.Regex.Language
import XmlShape.Proofs.Regex.Leftmost

/-!
# English plurals

Each rule for English matches whole names only, and its group is what stands before the suffix. So
it puts an ending in place of the suffix. At most two of the rules have something to say about a
name, and then they say different things.
-/

namespace XmlShape
namespace Naming

open Regex

/-!
# Whole names with a suffix
-/

def wholeMatch (w suffix : List Char) : Found where
  before := []
  matched := w ++ suffix
  after := []
  captures := [(1, w)]

section WithSuffix

variable {stem : List Pattern} {L : List Char → Prop} {suffix : List Char}

theorem leads_withSuffix_iff (hstem : Spells (Leads (sequence stem)) L) {front back : List Char}
    {t : Cursor} :
    Leads (withSuffix stem suffix).pattern (cursorAt front back) t ↔
      front = [] ∧ ∃ w, L w ∧ back = w ++ suffix ∧ t = ⟨back.getLast?, [], [(1, w)]⟩ := by
  rw [withSuffix, leads_sequence_append]
  simp only [leads_sequence_append, leads_sequence_cons]
  constructor
  · intro h
    obtain ⟨v, ⟨u, ⟨a, hstart, b, hgroup, hu⟩, hliteral⟩, c, hend, ht⟩ := h
    obtain ⟨hbefore, ha⟩ := hstart
    obtain ⟨m, hm, hb⟩ := hgroup
    obtain ⟨hafter, hc⟩ := hend
    obtain ⟨w, hw, hrest, hpast⟩ := (hstem a m).mp hm
    obtain ⟨w', rfl, hrest', hpast'⟩ := (spells_literal suffix u v).mp hliteral
    have htv : t = v := ht.trans hc
    have hfront : front = [] := List.getLast?_eq_none_iff.mp (Option.isNone_iff_eq_none.mp hbefore)
    have hnil : v.rest = [] := List.head?_eq_none_iff.mp (Option.isNone_iff_eq_none.mp hafter)
    have hub : u = b := hu
    subst htv hub hb ha hfront
    have hsuffix : m.rest = w' := by
      rw [hnil, List.append_nil] at hrest'
      exact hrest'
    rw [hsuffix] at hrest hpast
    refine ⟨rfl, w, hw, hrest, ?_⟩
    have hback : back = w ++ w' := hrest
    rw [hpast', hnil, hpast, hback]
    simp [Cursor.past, Cursor.capture, cursorAt, List.getLast?_append]
  · intro h
    obtain ⟨rfl, w, hw, rfl, rfl⟩ := h
    let start := cursorAt [] (w ++ suffix)
    let inner := (start.past w suffix).capture 1 start.rest
    have hgroup : Leads (.group 1 (sequence stem)) start inner :=
      ⟨_, (hstem start _).mpr ⟨w, hw, rfl, rfl⟩, rfl⟩
    have hliteral : Leads (sequence (literal suffix)) inner (inner.past suffix []) :=
      (spells_literal suffix _ _).mpr ⟨suffix, rfl, (List.append_nil suffix).symm, rfl⟩
    have hlast : (⟨(w ++ suffix).getLast?, [], [(1, w)]⟩ : Cursor) = inner.past suffix [] := by
      simp [Cursor.past, Cursor.capture, cursorAt, List.getLast?_append, inner, start]
    rw [hlast]
    exact ⟨_, ⟨inner, ⟨start, ⟨rfl, rfl⟩, inner, hgroup, rfl⟩, hliteral⟩, _, ⟨rfl, rfl⟩, rfl⟩

theorem find?_withSuffix (hstem : Spells (Leads (sequence stem)) L) {w : List Char} (hw : L w) :
    find? (withSuffix stem suffix).pattern (w ++ suffix) = some (wholeMatch w suffix) := by
  have hmatch : ∃ t, Leads (withSuffix stem suffix).pattern (cursorAt [] (w ++ suffix)) t :=
    ⟨_, (leads_withSuffix_iff hstem).mpr ⟨rfl, w, hw, rfl, rfl⟩⟩
  cases hfind : find? (withSuffix stem suffix).pattern (w ++ suffix) with
  | none =>
      exact absurd hmatch (find?_eq_none_iff.mp hfind [] (w ++ suffix) rfl)
  | some found =>
      obtain ⟨front, back, t, htext, hleads, hfound, _⟩ :=
        (searched_find? _ _).leftmost found hfind
      obtain ⟨rfl, w', _, hback, rfl⟩ := (leads_withSuffix_iff hstem).mp hleads
      rw [List.nil_append] at htext
      have hw' : w' = w := List.append_cancel_right (hback.symm.trans htext.symm)
      rw [hfound, foundAt, ← htext, hw', List.length_nil, Nat.sub_zero, List.take_length]
      rfl

theorem find?_withSuffix_eq_none (hstem : Spells (Leads (sequence stem)) L) {text : List Char}
    (h : ∀ w, L w → text ≠ w ++ suffix) :
    find? (withSuffix stem suffix).pattern text = none := by
  rw [find?_eq_none_iff]
  intro front back htext hleads
  obtain ⟨t, hleads⟩ := hleads
  obtain ⟨rfl, w, hw, hback, _⟩ := (leads_withSuffix_iff hstem).mp hleads
  exact h w hw (htext.trans hback)

end WithSuffix

/-!
# Rules that put an ending in place of a suffix
-/

/-- The singular has an ending where the plural has a suffix, after a stem that is allowed. -/
def Rewrites (Stem : List Char → Prop) (suffix ending : List Char) (plural singular : String) :
    Prop :=
  ∃ w, Stem w ∧ plural.toList = w ++ suffix ∧ singular.toList = w ++ ending

theorem expand_stem (names : List (String × Nat)) (w suffix ending : List Char) :
    ((Piece.group ['1'] :: ending.map Piece.char).flatMap
      (Piece.expand names (wholeMatch w suffix))) = w ++ ending := by
  have hending : (ending.map Piece.char).flatMap (Piece.expand names (wholeMatch w suffix)) =
      ending := by
    rw [List.flatMap_map]
    exact List.flatMap_singleton' ending
  rw [List.flatMap_cons, hending]
  rfl

structure Substitution.Swaps (rule : Substitution) (Stem : List Char → Prop)
    (suffix ending : List Char) : Prop where
  pattern : ∃ stem, rule.expression = withSuffix stem suffix ∧
    Spells (Leads (sequence stem)) Stem
  replacement : pieces rule.replacement = .group ['1'] :: ending.map .char

theorem Substitution.Swaps.replace? {rule : Substitution} {Stem : List Char → Prop}
    {suffix ending : List Char} (h : rule.Swaps Stem suffix ending) {name : String}
    {w : List Char} (hw : Stem w) (hname : name.toList = w ++ suffix) :
    rule.expression.replace? rule.replacement name = some (String.ofList (w ++ ending)) := by
  obtain ⟨⟨stem, hexpression, hstem⟩, hpieces⟩ := h
  rw [Expression.replace?, hexpression, hname, find?_withSuffix hstem hw, hpieces,
    Option.map_some, expand_stem]
  simp [wholeMatch]

theorem Substitution.Swaps.replace?_eq_none {rule : Substitution} {Stem : List Char → Prop}
    {suffix ending : List Char} (h : rule.Swaps Stem suffix ending) {name : String}
    (hname : ∀ w, Stem w → name.toList ≠ w ++ suffix) :
    rule.expression.replace? rule.replacement name = none := by
  obtain ⟨⟨stem, hexpression, hstem⟩, _⟩ := h
  rw [Expression.replace?, hexpression, find?_withSuffix_eq_none hstem hname, Option.map_none]

theorem singular?_eq_some {rule : Substitution} {name out : String} :
    rule.singular? name = some out ↔
      rule.expression.replace? rule.replacement name = some out ∧ out ≠ "" ∧ out ≠ name := by
  rw [Substitution.singular?, Option.filter_eq_some_iff]
  simp

theorem Substitution.Swaps.singular?_eq_some_iff {rule : Substitution} {Stem : List Char → Prop}
    {suffix ending : List Char} (h : rule.Swaps Stem suffix ending) {name out : String} :
    rule.singular? name = some out ↔
      Rewrites Stem suffix ending name out ∧ out ≠ "" ∧ out ≠ name := by
  rw [singular?_eq_some]
  apply and_congr_left'
  constructor
  · intro hreplace
    by_cases hname : ∃ w, Stem w ∧ name.toList = w ++ suffix
    · obtain ⟨w, hw, hname⟩ := hname
      rw [h.replace? hw hname, Option.some.injEq] at hreplace
      exact ⟨w, hw, hname, by rw [← hreplace, String.toList_ofList]⟩
    · rw [h.replace?_eq_none fun w hw hw' => hname ⟨w, hw, hw'⟩] at hreplace
      cases hreplace
  · intro hrewrites
    obtain ⟨w, hw, hname, hout⟩ := hrewrites
    rw [h.replace? hw hname, ← hout, String.ofList_toList]

/-!
# The rules for English
-/

/-- At least two characters, of which the last is none of a few. -/
def EndsOutside (cs w : List Char) : Prop :=
  2 ≤ w.length ∧ ∀ c ∈ w.getLast?, c ∉ cs

def EndsIn (endings : List (List Char)) (w : List Char) : Prop :=
  ∃ front ending, front ≠ [] ∧ ending ∈ endings ∧ w = front ++ ending

theorem spells_anything : Spells (Leads anything) fun w => w ≠ [] ∧ '\n' ∉ w := by
  apply (spells_repeated_one _ 1 true).congr
  intro w
  simp only [contains_complement, contains_single, Nat.succ_le_iff, List.length_pos_iff]
  constructor
  · intro h
    exact ⟨h.1, fun hline => h.2 _ hline rfl⟩
  · intro h
    exact ⟨h.1, fun c hc hline => h.2 (hline ▸ hc)⟩

theorem spells_anythingThen {p : Pattern} {L : List Char → Prop} (hp : Spells (Leads p) L) :
    Spells (Leads (sequence [anything, p])) fun w =>
      ∃ front ending, (front ≠ [] ∧ '\n' ∉ front) ∧ L ending ∧ w = front ++ ending :=
  spells_anything.seq hp

theorem endsOutside_iff {cs w : List Char} (hline : '\n' ∉ w) :
    (∃ front ending, (front ≠ [] ∧ '\n' ∉ front) ∧
        (∃ c, (CharSet.complement (.ofList cs)).contains c = true ∧ ending = [c]) ∧
        w = front ++ ending) ↔
      EndsOutside cs w := by
  simp only [contains_complement, contains_ofList]
  constructor
  · intro h
    obtain ⟨front, _, ⟨hfront, _⟩, ⟨c, hc, rfl⟩, rfl⟩ := h
    have hpos := List.length_pos_iff.mpr hfront
    constructor
    · rw [List.length_append, List.length_singleton]
      omega
    · rw [List.getLast?_concat]
      intro last hlast
      cases hlast
      exact hc
  · intro h
    obtain ⟨hlength, hlast⟩ := h
    cases w using List.reverseRecOn with
    | nil =>
        cases hlength
    | append_singleton front c =>
        rw [List.getLast?_concat] at hlast
        refine ⟨front, [c], ⟨?_, ?_⟩, ⟨c, hlast c rfl, rfl⟩, rfl⟩
        · rintro rfl
          exact Nat.not_succ_le_self 1 hlength
        · exact fun hmem => hline (List.mem_append_left _ hmem)

theorem spells_sibilant :
    Spells (Leads (.either (sequence (literal ['s', 's']))
      (.either (sequence (literal ['s', 'h']))
        (.either (sequence (literal ['c', 'h'])) (sequence (literal ['x']))))))
      (· ∈ [['s', 's'], ['s', 'h'], ['c', 'h'], ['x']]) := by
  apply ((spells_literal _).or ((spells_literal _).or
    ((spells_literal _).or (spells_literal _)))).congr
  intro w
  simp only [List.mem_cons, List.not_mem_nil, or_false]

theorem endsIn_iff {endings : List (List Char)} {w : List Char} (hline : '\n' ∉ w) :
    (∃ front ending, (front ≠ [] ∧ '\n' ∉ front) ∧ ending ∈ endings ∧ w = front ++ ending) ↔
      EndsIn endings w := by
  constructor
  · intro h
    obtain ⟨front, ending, ⟨hfront, _⟩, hending, hw⟩ := h
    exact ⟨front, ending, hfront, hending, hw⟩
  · intro h
    obtain ⟨front, ending, hfront, hending, rfl⟩ := h
    exact ⟨front, ending, ⟨hfront, fun hmem => hline (List.mem_append_left _ hmem)⟩, hending, rfl⟩

theorem rewrites_congr {S T : List Char → Prop} {suffix ending : List Char} {name out : String}
    (hiff : ∀ w, '\n' ∉ w → (S w ↔ T w)) (hline : '\n' ∉ name.toList) :
    Rewrites S suffix ending name out ↔ Rewrites T suffix ending name out := by
  apply exists_congr
  intro w
  apply and_congr_left
  intro h
  apply hiff
  rw [h.1] at hline
  exact fun hmem => hline (List.mem_append_left _ hmem)

/-- A rule for English gives a singular exactly if it has the form that the rule describes, which is
then neither empty nor the plural itself. -/
theorem singular?_iff {rule : Substitution} {S T : List Char → Prop} {suffix ending : List Char}
    (hrule : rule.Swaps S suffix ending) (hiff : ∀ w, '\n' ∉ w → (S w ↔ T w))
    (hstem : ∀ w, T w → w ≠ []) (hdiffer : suffix ≠ ending) {name : String}
    (hline : '\n' ∉ name.toList) (out : String) :
    rule.singular? name = some out ↔ Rewrites T suffix ending name out := by
  rw [hrule.singular?_eq_some_iff, rewrites_congr hiff hline, and_iff_left_iff_imp]
  intro h
  obtain ⟨w, hw, hname, hout⟩ := h
  constructor
  · rintro rfl
    exact hstem w hw (List.append_eq_nil_iff.mp hout.symm).1
  · rintro rfl
    exact hdiffer (List.append_cancel_left (hname.symm.trans hout))

def vowels : List Char :=
  ['a', 'e', 'i', 'o', 'u']

def sibilants : List (List Char) :=
  [['s', 's'], ['s', 'h'], ['c', 'h'], ['x']]

theorem EndsOutside.ne_nil {cs w : List Char} (h : EndsOutside cs w) : w ≠ [] := by
  rintro rfl
  exact absurd h.1 (by decide)

theorem EndsIn.ne_nil {endings : List (List Char)} {w : List Char} (h : EndsIn endings w) :
    w ≠ [] := by
  obtain ⟨front, ending, hfront, _, rfl⟩ := h
  exact fun hnil => hfront (List.append_eq_nil_iff.mp hnil).1

theorem singular?_iesRule {name : String} (hline : '\n' ∉ name.toList) (out : String) :
    iesRule.singular? name = some out ↔
      Rewrites (EndsOutside vowels) ['i', 'e', 's'] ['y'] name out :=
  singular?_iff ⟨⟨_, rfl, spells_anythingThen (spells_one _)⟩, by decide⟩
    (fun _ => endsOutside_iff) (fun _ => EndsOutside.ne_nil) (by decide) hline out

theorem singular?_esRule {name : String} (hline : '\n' ∉ name.toList) (out : String) :
    esRule.singular? name = some out ↔ Rewrites (EndsIn sibilants) ['e', 's'] [] name out :=
  singular?_iff ⟨⟨_, rfl, spells_anythingThen spells_sibilant⟩, by decide⟩
    (fun _ => endsIn_iff) (fun _ => EndsIn.ne_nil) (by decide) hline out

theorem singular?_sRule {name : String} (hline : '\n' ∉ name.toList) (out : String) :
    sRule.singular? name = some out ↔ Rewrites (EndsOutside ['s']) ['s'] [] name out :=
  singular?_iff ⟨⟨_, rfl, spells_anythingThen (spells_one _)⟩, by decide⟩
    (fun _ => endsOutside_iff) (fun _ => EndsOutside.ne_nil) (by decide) hline out

/-!
# Candidates
-/

theorem Rewrites.length_add {Stem : List Char → Prop} {suffix ending : List Char}
    {plural singular : String} (h : Rewrites Stem suffix ending plural singular) :
    singular.toList.length + suffix.length = plural.toList.length + ending.length := by
  obtain ⟨w, _, hplural, hsingular⟩ := h
  rw [hplural, hsingular, List.length_append, List.length_append]
  omega

theorem not_rewrites_ies_and_es {name out out' : String}
    (hies : Rewrites (EndsOutside vowels) ['i', 'e', 's'] ['y'] name out)
    (hes : Rewrites (EndsIn sibilants) ['e', 's'] [] name out') : False := by
  obtain ⟨w, _, hname, _⟩ := hies
  obtain ⟨_, ⟨front, ending, _, hending, rfl⟩, hname', _⟩ := hes
  have hsplit : (w ++ ['i']) ++ ['e', 's'] = (front ++ ending) ++ ['e', 's'] := by
    rw [← hname', hname, List.append_assoc]
    rfl
  have hlast := congrArg List.getLast? (List.append_cancel_right hsplit)
  simp only [sibilants, List.mem_cons, List.not_mem_nil, or_false] at hending
  rw [List.getLast?_concat, List.getLast?_append] at hlast
  rcases hending with rfl | rfl | rfl | rfl <;> exact absurd hlast (by simp)

theorem candidates_english_eq (name : String) :
    Convention.english.candidates name =
      ((iesRule.singular? name).toList ++ (esRule.singular? name).toList ++
        (sRule.singular? name).toList).eraseDups := by
  have hrules : englishRules.filterMap (·.singular? name) =
      (iesRule.singular? name).toList ++ (esRule.singular? name).toList ++
        (sRule.singular? name).toList := by
    simp only [englishRules, List.filterMap_cons, List.filterMap_nil]
    cases iesRule.singular? name <;> cases esRule.singular? name <;>
      cases sRule.singular? name <;> rfl
  rw [Convention.english, Convention.candidates, hrules]

theorem mem_candidates_english {name out : String}
    (h : out ∈ Convention.english.candidates name) : out ≠ "" ∧ out ≠ name := by
  rw [Convention.english, Convention.candidates, List.mem_eraseDups, List.mem_filterMap] at h
  obtain ⟨rule, _, hrule⟩ := h
  exact (singular?_eq_some.mp hrule).2

structure EnglishForms (name : String) (y? es? s? : Option String) : Prop where
  y : ∀ out, y? = some out ↔ Rewrites (EndsOutside vowels) ['i', 'e', 's'] ['y'] name out
  es : ∀ out, es? = some out ↔ Rewrites (EndsIn sibilants) ['e', 's'] [] name out
  s : ∀ out, s? = some out ↔ Rewrites (EndsOutside ['s']) ['s'] [] name out

namespace EnglishForms

variable {name : String} {y? es? s? : Option String}

theorem es_eq_none {out : String} (h : EnglishForms name (some out) es? s?) : es? = none := by
  rw [Option.eq_none_iff_forall_ne_some]
  intro out' hes
  exact not_rewrites_ies_and_es ((h.y out).mp rfl) ((h.es out').mp hes)

theorem y_ne_s {out out' : String} (h : EnglishForms name (some out) es? (some out')) :
    out ≠ out' := by
  rintro rfl
  have hy := ((h.y out).mp rfl).length_add
  have hs := ((h.s out).mp rfl).length_add
  simp only [List.length_cons, List.length_nil] at hy hs
  omega

theorem es_ne_s {out out' : String} (h : EnglishForms name y? (some out) (some out')) :
    out ≠ out' := by
  rintro rfl
  have hes := ((h.es out).mp rfl).length_add
  have hs := ((h.s out).mp rfl).length_add
  simp only [List.length_cons, List.length_nil] at hes hs
  omega

theorem few (h : EnglishForms name y? es? s?) :
    (y?.toList ++ es?.toList ++ s?.toList).Nodup ∧
      (y?.toList ++ es?.toList ++ s?.toList).length ≤ 2 := by
  cases y? with
  | some out =>
      rw [h.es_eq_none]
      cases s? with
      | none =>
          simp
      | some out' =>
          simpa using h.y_ne_s
  | none =>
      cases es? with
      | none =>
          cases s? <;> simp
      | some out =>
          cases s? with
          | none =>
              simp
          | some out' =>
              simpa using h.es_ne_s

end EnglishForms

theorem englishForms {name : String} (hline : '\n' ∉ name.toList) :
    EnglishForms name (iesRule.singular? name) (esRule.singular? name) (sRule.singular? name) := by
  constructor
  · exact singular?_iesRule hline
  · exact singular?_esRule hline
  · exact singular?_sRule hline

/-- The candidates of a name on one line are what the rules say about it, in their order: at most
two names, which are distinct and neither empty nor the name itself. -/
theorem candidates_english {name : String} (hline : '\n' ∉ name.toList) :
    ∃ y? es? s?, EnglishForms name y? es? s? ∧
      Convention.english.candidates name = y?.toList ++ es?.toList ++ s?.toList ∧
      (Convention.english.candidates name).length ≤ 2 ∧
      (Convention.english.candidates name).Nodup ∧
      (∀ out ∈ Convention.english.candidates name, out ≠ "" ∧ out ≠ name) ∧
      Convention.english.singular? name = (Convention.english.candidates name).head? := by
  have hforms := englishForms hline
  obtain ⟨hnodup, hlength⟩ := hforms.few
  have hcandidates : Convention.english.candidates name =
      (iesRule.singular? name).toList ++ (esRule.singular? name).toList ++
        (sRule.singular? name).toList := by
    rw [candidates_english_eq, eraseDups_of_nodup hnodup]
  refine ⟨_, _, _, hforms, hcandidates, ?_, ?_, ?_, ?_⟩
  · rw [hcandidates]
    exact hlength
  · rw [hcandidates]
    exact hnodup
  · intro out hout
    exact mem_candidates_english hout
  · exact (Convention.Standard.rules englishRules).singular?_eq_head? name

theorem candidates_english_movies :
    '\n' ∉ "movies".toList ∧
      ∃ y? es? s?, EnglishForms "movies" y? es? s? ∧
        y?.toList ++ es?.toList ++ s?.toList = ["movy", "movie"] := by
  have hline : '\n' ∉ "movies".toList := by decide
  obtain ⟨y?, es?, s?, hforms, hcandidates, _⟩ := candidates_english hline
  refine ⟨hline, y?, es?, s?, hforms, ?_⟩
  rw [← hcandidates]
  decide +kernel

end Naming
end XmlShape
