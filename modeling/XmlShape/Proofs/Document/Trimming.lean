import Mathlib.Data.List.TakeWhile
import XmlShape.Analysis
import XmlShape.Proofs.Document.Bracketing
import XmlShape.Proofs.Schema.Kernel
import XmlShape.Proofs.Text.Blank

/-!
# Trimming texts

A reading that trims drops the spaces at the ends of each text between two pieces of markup. It
accepts the same documents and finds the same elements in them, whose texts differ in spaces only.
A leaf keeps its type as long as its text is not interrupted; if it is, trimming drops spaces that
stand in the middle of it.
-/

namespace XmlShape

/-!
# What differs in spaces
-/

namespace Text

/-- What is left of a text without its spaces. -/
def unspaced (cs : List Char) : List Char :=
  cs.filter fun c => !isSpace c

theorem unspaced_append (cs ds : List Char) : unspaced (cs ++ ds) = unspaced cs ++ unspaced ds :=
  List.filter_append cs ds

theorem unspaced_eq_nil {cs : List Char} (h : ∀ c ∈ cs, isSpace c = true) : unspaced cs = [] := by
  rw [unspaced, List.filter_eq_nil_iff]
  intro c hc
  simp [h c hc]

end Text

namespace Element

mutual

def unspaced : Element → Element
  | ⟨name, attributes, children, text⟩ =>
      ⟨name, attributes, unspacedAll children, String.ofList (Text.unspaced text.toList)⟩

def unspacedAll : List Element → List Element
  | [] => []
  | e :: es => e.unspaced :: unspacedAll es

end

theorem unspacedAll_eq_map (es : List Element) : unspacedAll es = es.map unspaced := by
  induction es with
  | nil =>
      rfl
  | cons e es ih =>
      rw [unspacedAll, ih, List.map_cons]

/-- Trees that differ in spaces only have the same names, attributes and children all the way
down. -/
theorem unspaced_eq_iff {e f : Element} :
    e.unspaced = f.unspaced ↔
      e.name = f.name ∧ e.attributes = f.attributes ∧
        e.children.map unspaced = f.children.map unspaced ∧
          Text.unspaced e.text.toList = Text.unspaced f.text.toList := by
  cases e
  cases f
  rw [unspaced, unspaced, unspacedAll_eq_map, unspacedAll_eq_map, Element.mk.injEq,
    String.ofList_inj]

end Element

namespace Document

open Markup Text

/-!
# Texts of an element
-/

def isFilled : Item → Bool
  | .token _ (.text raw) => !raw.all isBlank
  | .token _ (.cdata raw) => !raw.all isBlank
  | _ => false

/-- Two texts of the same items. They differ in spaces only, and these are blanks at their ends
unless more than one of the items is filled. -/
structure TextsAgree (body : List Item) (cs cs' : List Char) : Prop where
  unspaced : unspaced cs = unspaced cs'
  blank : body.countP isFilled = 0 →
    (∀ c ∈ cs, isBlank c = true) ∧ ∀ c ∈ cs', isBlank c = true
  trim : body.countP isFilled ≤ 1 → trim isBlank cs = trim isBlank cs'

theorem TextsAgree.empty (body : List Item) : TextsAgree body [] [] := by
  constructor
  · rfl
  · intro _
    simp
  · intro _
    rfl

theorem TextsAgree.classifyText_eq {body : List Item} {cs cs' : List Char}
    (h : TextsAgree body cs cs') (hcount : body.countP isFilled ≤ 1) (truthValues : Bool) :
    classifyText truthValues (String.ofList cs) = classifyText truthValues (String.ofList cs') := by
  rw [classifyText, classifyText, String.toList_ofList, String.toList_ofList, h.trim hcount]

theorem TextsAgree.append {xs ys : List Item} {cs cs' ds ds' : List Char}
    (h : TextsAgree xs cs cs') (h' : TextsAgree ys ds ds') :
    TextsAgree (xs ++ ys) (cs ++ ds) (cs' ++ ds') := by
  constructor
  · rw [unspaced_append, unspaced_append, h.unspaced, h'.unspaced]
  · intro hcount
    rw [List.countP_append] at hcount
    obtain ⟨hcs, hcs'⟩ := h.blank (by omega)
    obtain ⟨hds, hds'⟩ := h'.blank (by omega)
    exact ⟨List.forall_mem_append.mpr ⟨hcs, hds⟩, List.forall_mem_append.mpr ⟨hcs', hds'⟩⟩
  · intro hcount
    rw [List.countP_append] at hcount
    by_cases hxs : xs.countP isFilled = 0
    · obtain ⟨hcs, hcs'⟩ := h.blank hxs
      rw [trim_append_left hcs, trim_append_left hcs']
      exact h'.trim (by omega)
    · obtain ⟨hds, hds'⟩ := h'.blank (by omega)
      rw [trim_append_right hds, trim_append_right hds']
      exact h.trim (by omega)

theorem TextsAgree.extend {body : List Item} {cs cs' : List Char} (h : TextsAgree body cs cs')
    (more : List Item) : TextsAgree (body ++ more) cs cs' := by
  have happend := h.append (.empty more)
  rw [List.append_nil, List.append_nil] at happend
  exact happend

theorem mem_of_mem_keptText {trimmed : Bool} {raw : List Char} {c : Char}
    (h : c ∈ keptText trimmed raw) : c ∈ raw := by
  cases trimmed with
  | true =>
      exact mem_of_mem_trim h
  | false =>
      exact h

theorem blank_of_unescape {trimmed : Bool} {raw cs : List Char} (hraw : raw.all isBlank = true)
    (h : unescape (keptText trimmed raw) = .ok cs) : ∀ c ∈ cs, isBlank c = true := by
  rw [List.all_eq_true] at hraw
  have hplain : '&' ∉ keptText trimmed raw := by
    intro hmem
    have hblank := hraw _ (mem_of_mem_keptText hmem)
    exact absurd hblank (by decide)
  have hself := unescapeFrom_plain hplain 0
  rw [unescape, hself] at h
  cases h
  intro c hc
  exact hraw c (mem_of_mem_keptText hc)

def SpacedOut (inner cs : List Char) : Prop :=
  ∃ before after, cs = before ++ inner ++ after ∧ (∀ c ∈ before, isSpace c = true) ∧
    ∀ c ∈ after, isSpace c = true

theorem SpacedOut.trim_eq {inner cs : List Char} (h : SpacedOut inner cs) :
    trim isBlank cs = trim isBlank inner := by
  obtain ⟨before, after, rfl, hbefore, hafter⟩ := h
  exact trim_around (fun c hc => isBlank_of_isSpace c (hbefore c hc))
    (fun c hc => isBlank_of_isSpace c (hafter c hc)) inner

theorem SpacedOut.unspaced_eq {inner cs : List Char} (h : SpacedOut inner cs) :
    unspaced cs = unspaced inner := by
  obtain ⟨before, after, rfl, hbefore, hafter⟩ := h
  rw [unspaced_append, unspaced_append, unspaced_eq_nil hbefore, unspaced_eq_nil hafter,
    List.nil_append, List.append_nil]

/-- Whatever is kept of a text is read as the trimmed text is, but for the spaces around it. -/
theorem exists_toOption_unescape (trimmed : Bool) (raw : List Char) :
    ∃ before after, (∀ c ∈ before, isSpace c = true) ∧ (∀ c ∈ after, isSpace c = true) ∧
      (unescape (keptText trimmed raw)).toOption =
        (unescape (trim isSpace raw)).toOption.map (before ++ · ++ after) := by
  cases trimmed with
  | true =>
      refine ⟨[], [], List.forall_mem_nil _, List.forall_mem_nil _, ?_⟩
      have hkept : (fun cs : List Char => [] ++ cs ++ []) = id := by
        funext cs
        exact List.append_nil cs
      rw [hkept, Option.map_id_apply]
      rfl
  | false =>
      obtain ⟨before, after, hraw, hbefore, hafter⟩ := exists_trim isSpace raw
      refine ⟨before, after, hbefore, hafter, ?_⟩
      have hbeforeAmp : '&' ∉ before := by
        intro hmem
        exact absurd (hbefore _ hmem) (by decide)
      have hafterAmp : '&' ∉ after := by
        intro hmem
        exact absurd (hafter _ hmem) (by decide)
      have hafterEnd : ';' ∉ after := by
        intro hmem
        exact absurd (hafter _ hmem) (by decide)
      have haround := unescape_around hbeforeAmp hafterAmp hafterEnd (trim isSpace raw)
      rw [← hraw] at haround
      exact haround

theorem exists_inner {trimmed : Bool} {raw cs : List Char}
    (h : unescape (keptText trimmed raw) = .ok cs) :
    ∃ inner, unescape (trim isSpace raw) = .ok inner ∧ SpacedOut inner cs := by
  obtain ⟨before, after, hbefore, hafter, hkept⟩ := exists_toOption_unescape trimmed raw
  rw [h] at hkept
  obtain ⟨inner, hinner, hcs⟩ := Option.map_eq_some_iff.mp hkept.symm
  exact ⟨inner, toOption_eq_some.mp hinner, before, after, hcs.symm, hbefore, hafter⟩

theorem exists_spacedOut {raw inner : List Char} (h : unescape (trim isSpace raw) = .ok inner)
    (trimmed : Bool) :
    ∃ cs, unescape (keptText trimmed raw) = .ok cs ∧ SpacedOut inner cs := by
  obtain ⟨before, after, hbefore, hafter, hkept⟩ := exists_toOption_unescape trimmed raw
  rw [h] at hkept
  exact ⟨before ++ inner ++ after, toOption_eq_some.mp hkept, before, after, rfl, hbefore, hafter⟩

theorem exists_adds {trimmed : Bool} {limit : Nat} {token : Token} {cs : List Char}
    (h : Adds ⟨trimmed, limit⟩ token cs) (trimmed' : Bool) (offset : Nat) :
    ∃ cs', Adds ⟨trimmed', limit⟩ token cs' ∧ TextsAgree [.token offset token] cs cs' := by
  cases token with
  | text raw =>
      have hraw : unescape (keptText trimmed raw) = .ok cs := h
      obtain ⟨inner, hinner, hcs⟩ := exists_inner hraw
      obtain ⟨cs', hraw', hcs'⟩ := exists_spacedOut hinner trimmed'
      refine ⟨cs', hraw', ?_, ?_, ?_⟩
      · exact hcs.unspaced_eq.trans hcs'.unspaced_eq.symm
      · intro hcount
        have hblank : raw.all isBlank = true := by
          simpa [isFilled] using hcount
        exact ⟨blank_of_unescape hblank hraw, blank_of_unescape hblank hraw'⟩
      · intro _
        exact hcs.trim_eq.trans hcs'.trim_eq.symm
  | cdata raw =>
      have hcs : cs = raw := h
      subst hcs
      refine ⟨cs, rfl, rfl, ?_, fun _ => rfl⟩
      intro hcount
      have hblank : ∀ c ∈ cs, isBlank c = true := by
        simpa [isFilled] using hcount
      exact ⟨hblank, hblank⟩
  | ignored =>
      cases h
      exact ⟨[], rfl, .empty _⟩
  | _ =>
      cases h

/-!
# Leaves

Whether an element is a leaf is seen from the items: no tag stands between its tags.
-/

/-- What stands before the next tag, if that is an end tag. -/
def leafBody? : List Item → Option (List Item)
  | [] => none
  | .token _ (.endTag _) :: _ => some []
  | .token _ (.startTag _) :: _ => none
  | .token _ (.emptyTag _) :: _ => none
  | item :: items => (leafBody? items).map (item :: ·)

/-- What stands between the tags of each leaf that is not a single tag. -/
def leafBodies : List Item → List (List Item)
  | [] => []
  | .token _ (.startTag _) :: items => (leafBody? items).toList ++ leafBodies items
  | _ :: items => leafBodies items

/-- No leaf has more than one piece of text that is more than blanks. -/
def Uninterrupted (items : List Item) : Prop :=
  ∀ body ∈ leafBodies items, body.countP isFilled ≤ 1

instance (items : List Item) : Decidable (Uninterrupted items) :=
  inferInstanceAs (Decidable (∀ body ∈ leafBodies items, body.countP isFilled ≤ 1))

theorem leafBody?_append {xs body : List Item} (h : leafBody? xs = some body) (ys : List Item) :
    leafBody? (xs ++ ys) = some body := by
  fun_induction leafBody? xs generalizing body with
  | case1 =>
      cases h
  | case2 =>
      exact h
  | case3 =>
      cases h
  | case4 =>
      cases h
  | case5 item items hend hstart hempty ih =>
      obtain ⟨rest, hrest, rfl⟩ := Option.map_eq_some_iff.mp h
      rw [List.cons_append, leafBody?, ih hrest]
      · rfl
      · exact hend
      · exact hstart
      · exact hempty

theorem leafBody?_of_outside {body : List Item} (h : ∀ item ∈ body, IsOutside item)
    (offset : Nat) (name : List Char) :
    leafBody? (body ++ [.token offset (.endTag name)]) = some body := by
  induction body with
  | nil =>
      rfl
  | cons item body ih =>
      obtain ⟨start, token, rfl, htag⟩ := h item List.mem_cons_self
      have hrest := ih fun other hother => h other (List.mem_cons_of_mem _ hother)
      cases token with
      | text raw =>
          exact congrArg (Option.map _) hrest
      | cdata raw =>
          exact congrArg (Option.map _) hrest
      | ignored =>
          exact congrArg (Option.map _) hrest
      | _ =>
          cases htag

theorem mem_leafBodies_cons {item : Item} {items body : List Item} (h : body ∈ leafBodies items) :
    body ∈ leafBodies (item :: items) := by
  unfold leafBodies
  split
  · cases ‹_ = _›
  · next heq =>
    cases heq
    exact List.mem_append_right _ h
  · next heq =>
    cases heq
    exact h

theorem mem_leafBodies_append_left {xs body : List Item} (h : body ∈ leafBodies xs)
    (ys : List Item) : body ∈ leafBodies (xs ++ ys) := by
  fun_induction leafBodies xs with
  | case1 =>
      cases h
  | case2 offset content items ih =>
      rw [List.cons_append, leafBodies, List.mem_append, Option.mem_toList]
      cases List.mem_append.mp h with
      | inl hbody =>
          exact Or.inl (leafBody?_append (Option.mem_toList.mp hbody) ys)
      | inr hrest =>
          exact Or.inr (ih hrest)
  | case3 item items hstart ih =>
      rw [List.cons_append]
      exact mem_leafBodies_cons (ih h)

theorem mem_leafBodies_append_right {ys body : List Item} (h : body ∈ leafBodies ys)
    (xs : List Item) : body ∈ leafBodies (xs ++ ys) := by
  induction xs with
  | nil =>
      exact h
  | cons item xs ih =>
      exact mem_leafBodies_cons ih

theorem mem_leafBodies_of_outside {body : List Item} (h : ∀ item ∈ body, IsOutside item)
    (start : Nat) (content : List Char) (stop : Nat) (name : List Char) :
    body ∈ leafBodies
      (.token start (.startTag content) :: (body ++ [.token stop (.endTag name)])) := by
  rw [leafBodies, leafBody?_of_outside h]
  exact List.mem_cons_self

theorem Uninterrupted.tail {item : Item} {items : List Item} (h : Uninterrupted (item :: items)) :
    Uninterrupted items := by
  intro body hbody
  exact h body (mem_leafBodies_cons hbody)

theorem Uninterrupted.left {xs ys : List Item} (h : Uninterrupted (xs ++ ys)) :
    Uninterrupted xs := by
  intro body hbody
  exact h body (mem_leafBodies_append_left hbody ys)

theorem Uninterrupted.right {xs ys : List Item} (h : Uninterrupted (xs ++ ys)) :
    Uninterrupted ys := by
  intro body hbody
  exact h body (mem_leafBodies_append_right hbody xs)

theorem Adds.isTag_eq_false {options : ReadingOptions} {token : Token} {cs : List Char}
    (h : Adds options token cs) : isTag token = false := by
  cases token with
  | text raw =>
      rfl
  | cdata raw =>
      rfl
  | ignored =>
      rfl
  | _ =>
      cases h

theorem IsContent.outside {options : ReadingOptions} {level : Nat} {body : List Item}
    {children : List Element} {cs : List Char} :
    IsContent options level body children cs → children = [] → ∀ item ∈ body, IsOutside item
  | .nil, _ => by
      intro item hitem
      cases hitem
  | .piece offset hbody hadds, hnil =>
      isOutside_concat (hbody.outside hnil) ⟨offset, _, rfl, hadds.isTag_eq_false⟩
  | .child _ _, hnil => by
      simp at hnil

/-!
# Readings with and without trimming
-/

section Readings

variable {trimmed : Bool} {limit : Nat}

mutual

theorem IsElement.retrim : {level : Nat} → {items : List Item} → {e : Element} →
    IsElement ⟨trimmed, limit⟩ level items e → ∀ trimmed' : Bool,
      ∃ e', IsElement ⟨trimmed', limit⟩ level items e' ∧ e.unspaced = e'.unspaced ∧
        (Uninterrupted items → ∀ truthValues, Schema.Alike truthValues e e')
  | _, _, _, .empty offset hattributes hlevel, trimmed' => by
      refine ⟨_, .empty offset hattributes hlevel, rfl, ?_⟩
      intro _ truthValues
      rw [Schema.alike_iff]
      exact ⟨rfl, fun _ => rfl, trivial, fun _ _ => rfl⟩
  | _, _, _, .tagged start stop hattributes hlevel hbody hname, trimmed' => by
      obtain ⟨children', cs', hbody', htexts, hunspaced, hchildren⟩ := hbody.retrim trimmed'
      refine ⟨_, .tagged start stop hattributes hlevel hbody' hname, ?_, ?_⟩
      · rw [Element.unspaced_eq_iff, String.toList_ofList, String.toList_ofList]
        exact ⟨rfl, rfl, hunspaced, htexts.unspaced⟩
      intro hitems truthValues
      rw [Schema.alike_iff]
      refine ⟨rfl, fun _ => rfl, ?_, ?_⟩
      · exact hchildren hitems.tail.left truthValues
      · -- the text of an element with children is not looked at by a scan
        intro hleaf _
        have hpieces := hitems _ (mem_leafBodies_of_outside (hbody.outside hleaf) start _ stop _)
        exact htexts.classifyText_eq hpieces truthValues

theorem IsContent.retrim : {level : Nat} → {body : List Item} → {children : List Element} →
    {cs : List Char} → IsContent ⟨trimmed, limit⟩ level body children cs → ∀ trimmed' : Bool,
      ∃ children' cs', IsContent ⟨trimmed', limit⟩ level body children' cs' ∧
        TextsAgree body cs cs' ∧ children.map Element.unspaced = children'.map Element.unspaced ∧
        (Uninterrupted body → ∀ truthValues, Schema.AlikeAll truthValues children children')
  | _, _, _, _, .nil, trimmed' =>
      ⟨[], [], .nil, .empty [], rfl, fun _ _ => trivial⟩
  | _, _, _, _, .piece offset hbody hadds, trimmed' => by
      obtain ⟨children', cs', hbody', htexts, hunspaced, hchildren⟩ := hbody.retrim trimmed'
      obtain ⟨more', hadds', hmore⟩ := exists_adds hadds trimmed' offset
      exact ⟨children', cs' ++ more', .piece offset hbody' hadds', htexts.append hmore, hunspaced,
        fun hitems => hchildren hitems.left⟩
  | _, _, _, _, .child hbody hinner, trimmed' => by
      obtain ⟨children', cs', hbody', htexts, hunspaced, hchildren⟩ := hbody.retrim trimmed'
      obtain ⟨e', hinner', hsame, halike⟩ := hinner.retrim trimmed'
      refine ⟨children' ++ [e'], cs', .child hbody' hinner', ?_, ?_, ?_⟩
      · exact htexts.extend _
      · rw [List.map_append, List.map_append, hunspaced, List.map_singleton, List.map_singleton,
          hsame]
      · intro hitems truthValues
        exact (hchildren hitems.left truthValues).concat (halike hitems.right truthValues)

end

theorem read_retrim {text : String} {root : Element} (h : read ⟨trimmed, limit⟩ text = .ok root)
    (trimmed' : Bool) :
    ∃ root', read ⟨trimmed', limit⟩ text = .ok root' ∧ root.unspaced = root'.unspaced ∧
      (Uninterrupted (items text.toList) →
        ∀ truthValues, Schema.Alike truthValues root root') := by
  obtain ⟨before, inner, after, hitems, hbefore, hinner, hafter⟩ := build_eq_ok_iff.mp h
  obtain ⟨root', hinner', hunspaced, halike⟩ := hinner.retrim trimmed'
  refine ⟨root', build_eq_ok_iff.mpr ⟨before, inner, after, hitems, hbefore, hinner', hafter⟩,
    hunspaced, ?_⟩
  intro huninterrupted
  rw [hitems] at huninterrupted
  exact halike huninterrupted.left.right

end Readings

/-- Whether texts are trimmed decides neither which documents are accepted nor, spaces in texts
apart, which trees are read from them. -/
theorem read_trimText (config : Config) (trimText trimText' : Bool) (text : String) :
    (read { config with trimText }.reading text).toOption.map Element.unspaced =
      (read { config with trimText := trimText' }.reading text).toOption.map Element.unspaced := by
  have hkept : ∀ trimText trimText' : Bool, ∀ e : Element,
      (read { config with trimText }.reading text).toOption.map Element.unspaced = some e →
        (read { config with trimText := trimText' }.reading text).toOption.map Element.unspaced =
          some e := by
    intro trimText trimText' e h
    obtain ⟨root, hroot, rfl⟩ := Option.map_eq_some_iff.mp h
    obtain ⟨root', hread', hunspaced, _⟩ := read_retrim (toOption_eq_some.mp hroot) trimText'
    have hretrim : read { config with trimText := trimText' }.reading text = .ok root' := hread'
    rw [hretrim, hunspaced]
    rfl
  ext e
  exact ⟨hkept trimText trimText' e, hkept trimText' trimText e⟩

theorem scanText_retrim {config : Config} {text : String} {m : Schema.Model}
    (h : Uninterrupted (items text.toList)) (hm : scanText config text = .ok m)
    (trimText : Bool) : scanText { config with trimText } text = .ok m := by
  unfold scanText at hm ⊢
  cases hread : read config.reading text with
  | error fault =>
      rw [hread] at hm
      cases hm
  | ok root =>
      obtain ⟨root', hread', _, halike⟩ := read_retrim hread trimText
      have hscan := Schema.scan_congr (halike h config.scanning.truthValues)
      have hretrim : read { config with trimText }.reading text = .ok root' := hread'
      rw [hread] at hm
      rw [hretrim, ← hm]
      exact congrArg Except.ok hscan.symm

/-- A document in which no leaf is interrupted has the same model whether or not its texts are
trimmed, and it is refused by both readings or by neither. -/
theorem scanText_trimText (config : Config) (text : String) (m : Schema.Model)
    (h : Uninterrupted (items text.toList)) :
    scanText { config with trimText := true } text = .ok m ↔
      scanText { config with trimText := false } text = .ok m := by
  constructor
  · intro hm
    exact scanText_retrim h hm false
  · intro hm
    exact scanText_retrim h hm true

theorem scanText_trimText_mixed :
    Uninterrupted (items "<a>x <b> 1 <!----> </b> y</a>".toList) ∧
      ∃ m, scanText { trimText := true } "<a>x <b> 1 <!----> </b> y</a>" = .ok m ∧
        scanText { trimText := false } "<a>x <b> 1 <!----> </b> y</a>" = .ok m := by
  have h : Uninterrupted (items "<a>x <b> 1 <!----> </b> y</a>".toList) := by
    decide
  have hread : read ({ trimText := true } : Config).reading "<a>x <b> 1 <!----> </b> y</a>" =
      .ok ⟨"a", [], [⟨"b", [], [], "1"⟩], "xy"⟩ := rfl
  have hscan : scanText { trimText := true } "<a>x <b> 1 <!----> </b> y</a>" =
      .ok (Schema.scan ({} : Config).scanning ⟨"a", [], [⟨"b", [], [], "1"⟩], "xy"⟩) := by
    rw [scanText, hread]
    rfl
  exact ⟨h, _, hscan, (scanText_trimText {} _ _ h).mp hscan⟩

/-- In a leaf that is interrupted, trimming joins what a space keeps apart: two numbers become
one. -/
theorem scanText_trimText_interrupted :
    read ({ trimText := true } : Config).reading "<a>1 <!-- or -->2</a>" =
        .ok ⟨"a", [], [], "12"⟩ ∧
      (scanText { trimText := true } "<a>1 <!-- or -->2</a>").map
          (fun m => m.records.map (·.type)) = .ok [.integer] ∧
      (scanText { trimText := false } "<a>1 <!-- or -->2</a>").map
          (fun m => m.records.map (·.type)) = .ok [.string] ∧
      scanText { trimText := true } "<a>1 <!-- or -->2</a>" ≠
        scanText { trimText := false } "<a>1 <!-- or -->2</a>" := by
  have htrimmed : read ({ trimText := true } : Config).reading "<a>1 <!-- or -->2</a>" =
      .ok ⟨"a", [], [], "12"⟩ := rfl
  have hplain : read ({ trimText := false } : Config).reading "<a>1 <!-- or -->2</a>" =
      .ok ⟨"a", [], [], "1 2"⟩ := rfl
  have hinteger : (scanText { trimText := true } "<a>1 <!-- or -->2</a>").map
      (fun m => m.records.map (·.type)) = .ok [.integer] := by
    rw [scanText, htrimmed]
    rfl
  have hstring : (scanText { trimText := false } "<a>1 <!-- or -->2</a>").map
      (fun m => m.records.map (·.type)) = .ok [.string] := by
    rw [scanText, hplain]
    rfl
  refine ⟨htrimmed, hinteger, hstring, ?_⟩
  intro hsame
  rw [hsame, hstring] at hinteger
  cases hinteger

end Document
end XmlShape
