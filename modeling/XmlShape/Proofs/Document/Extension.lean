import XmlShape.Proofs.Document.RoundTrip

/-!
# What may follow a document

Once the root is closed no further element is taken in: whatever follows is passed over or is a
fault. A text that is a document keeps its tree when more is appended to it, or it is a document
no longer.
-/

namespace XmlShape
namespace Document

open Markup Text

/-!
# Steps one after another
-/

namespace Progress

variable {options : ReadingOptions}

theorem of_bind_eq_ok {α β : Type} {result : Except DocumentFault α}
    {next : α → Except DocumentFault β} {value : β} (h : result >>= next = .ok value) :
    ∃ first, result = .ok first ∧ next first = .ok value := by
  cases result with
  | error fault =>
      cases h
  | ok first =>
      exact ⟨first, rfl, h⟩

theorem foldlM_cons_of_error {p : Progress} {item : Item} {fault : DocumentFault}
    (h : step options p item = .error fault) (items : List Item) :
    (item :: items).foldlM (step options) p = .error fault := by
  rw [List.foldlM_cons, h]
  rfl

theorem foldlM_cons_of_ok {p q : Progress} {item : Item} (h : step options p item = .ok q)
    (items : List Item) :
    (item :: items).foldlM (step options) p = items.foldlM (step options) q := by
  rw [List.foldlM_cons, h]
  rfl

theorem foldlM_append_of_ok {p q : Progress} {items : List Item}
    (h : items.foldlM (step options) p = .ok q) (more : List Item) :
    (items ++ more).foldlM (step options) p = more.foldlM (step options) q := by
  rw [List.foldlM_append, h]
  rfl

theorem of_foldlM_cons_eq_ok {p q : Progress} {item : Item} {items : List Item}
    (h : (item :: items).foldlM (step options) p = .ok q) :
    ∃ r, step options p item = .ok r ∧ items.foldlM (step options) r = .ok q := by
  rw [List.foldlM_cons] at h
  exact of_bind_eq_ok h

theorem fault_not_mem_of_foldlM {items : List Item} {p q : Progress}
    (h : items.foldlM (step options) p = .ok q) (position : Nat) (fault : Fault) :
    .fault position fault ∉ items := by
  induction items generalizing p with
  | nil =>
      exact List.not_mem_nil
  | cons item items ih =>
      rcases of_foldlM_cons_eq_ok h with ⟨r, hstep, hrest⟩
      intro hmem
      cases List.mem_cons.mp hmem with
      | inl heq =>
          rw [← heq] at hstep
          cases hstep
      | inr hmem =>
          exact ih hrest hmem

theorem finish_eq_ok_iff {p : Progress} {root : Element} :
    p.finish = .ok root ↔ p = ⟨[], some root⟩ := by
  cases p with
  | mk path root' =>
      cases path with
      | nil =>
          cases root' <;> simp [finish]
      | cons o path =>
          simp [finish]

theorem eq_of_addText_eq_closed {p : Progress} {offset : Nat} {raw : List Char} {root : Element}
    (h : p.addText options offset raw = .ok ⟨[], some root⟩) : p = ⟨[], some root⟩ := by
  cases p with
  | mk path root' =>
      cases path with
      | nil =>
          cases h
          rfl
      | cons parent path =>
          simp only [addText] at h
          split at h <;> cases h

end Progress

/-!
# After the root

With the root closed, every item leaves things as they are or ends the reading, and a tag always
ends it.
-/

/-- What a reading after the root can come to: it keeps what there is, or it fails on the markup
or on a second root. -/
def KeepsOrFails {α : Type} (root : Element) (kept : α) (result : Except DocumentFault α) : Prop :=
  result = .ok kept ∨
    (∃ position fault, result = .error (.markup position fault)) ∨
    ∃ second, result = .error (.secondRoot root.name second)

def isTag : Token → Bool
  | .startTag _ => true
  | .emptyTag _ => true
  | .endTag _ => true
  | _ => false

section Closed

variable (options : ReadingOptions) (root : Element)

theorem step_closed (item : Item) :
    KeepsOrFails root ⟨[], some root⟩ (Progress.step options ⟨[], some root⟩ item) := by
  cases item with
  | fault position fault =>
      exact Or.inr (Or.inl ⟨position, fault, rfl⟩)
  | token offset token =>
      cases token with
      | startTag content =>
          exact Or.inr (Or.inr ⟨String.ofList (tagName content), rfl⟩)
      | emptyTag content =>
          exact Or.inr (Or.inr ⟨String.ofList (tagName content), rfl⟩)
      | endTag name =>
          exact Or.inr (Or.inl ⟨offset, .illFormed (.unmatchedEnd (String.ofList name)), rfl⟩)
      | _ =>
          exact Or.inl rfl

theorem foldlM_closed (items : List Item) :
    KeepsOrFails root ⟨[], some root⟩
      (items.foldlM (Progress.step options) ⟨[], some root⟩) := by
  induction items with
  | nil =>
      exact Or.inl rfl
  | cons item items ih =>
      rcases step_closed options root item with
        hkeep | ⟨position, fault, hfail⟩ | ⟨second, hfail⟩
      · rw [Progress.foldlM_cons_of_ok hkeep]
        exact ih
      · rw [Progress.foldlM_cons_of_error hfail]
        exact Or.inr (Or.inl ⟨position, fault, rfl⟩)
      · rw [Progress.foldlM_cons_of_error hfail]
        exact Or.inr (Or.inr ⟨second, rfl⟩)

theorem isTag_eq_false_of_foldlM {items : List Item} {q : Progress}
    (h : items.foldlM (Progress.step options) ⟨[], some root⟩ = .ok q) :
    ∀ offset token, .token offset token ∈ items → isTag token = false := by
  induction items with
  | nil =>
      intro offset token hmem
      cases hmem
  | cons item items ih =>
      rcases Progress.of_foldlM_cons_eq_ok h with ⟨r, hstep, hrest⟩
      have hr : r = ⟨[], some root⟩ := by
        rcases step_closed options root item with hkeep | ⟨_, _, hfail⟩ | ⟨_, hfail⟩
        · rw [hkeep] at hstep
          exact (Except.ok.inj hstep).symm
        · rw [hfail] at hstep
          cases hstep
        · rw [hfail] at hstep
          cases hstep
      subst hr
      intro offset token hmem
      cases List.mem_cons.mp hmem with
      | inr hmem =>
          exact ih hrest offset token hmem
      | inl heq =>
          rw [← heq] at hstep
          cases token with
          | startTag content =>
              cases hstep
          | emptyTag content =>
              cases hstep
          | endTag name =>
              cases hstep
          | _ =>
              rfl

theorem readFrom_closed (offset : Nat) (mode : Mode) (cs : List Char) :
    KeepsOrFails root root (readFrom options offset mode ⟨[], some root⟩ cs) := by
  unfold readFrom
  rcases foldlM_closed options root (itemsFrom offset mode cs) with
    hkeep | ⟨position, fault, hfail⟩ | ⟨second, hfail⟩
  · rw [hkeep]
    exact Or.inl rfl
  · rw [hfail]
    exact Or.inr (Or.inl ⟨position, fault, rfl⟩)
  · rw [hfail]
    exact Or.inr (Or.inr ⟨second, rfl⟩)

end Closed

/-!
# Reading on

A document ends in a text outside the root, and that text may go on.
-/

section ReadingOn

variable {options : ReadingOptions} {offset : Nat} {raw : List Char} {p : Progress}
  {cs : List Char} {root : Element}

theorem readFrom_append (mode : Mode) (rest : List Char) :
    readFrom options offset mode p (cs ++ rest) =
      (do
        let q ← (run offset mode cs).1.foldlM (Progress.step options) p
        readFrom options (offset + byteSize cs) (run offset mode cs).2 q rest) := by
  unfold readFrom
  rw [itemsFrom_append, List.foldlM_append, bind_assoc]

theorem closed_of_readFrom (h : readFrom options offset (.text raw) p cs = .ok root) :
    ∃ raw', (run offset (.text raw) cs).2 = .text raw' ∧
      (run offset (.text raw) cs).1.foldlM (Progress.step options) p = .ok ⟨[], some root⟩ := by
  rcases Progress.of_bind_eq_ok h with ⟨q, hitems, hfinish⟩
  cases Progress.finish_eq_ok_iff.mp hfinish
  have hfault := Progress.fault_not_mem_of_foldlM hitems
  rcases exists_text_of_no_fault Mode.noConfusion hfault with ⟨raw', hmode⟩
  rw [itemsFrom_eq, List.foldlM_append, hmode] at hitems
  rcases Progress.of_bind_eq_ok hitems with ⟨r, hrun, hlast⟩
  have hr : r = ⟨[], some root⟩ := by
    rcases Progress.of_bind_eq_ok hlast with ⟨r', htext, hend⟩
    cases hend
    exact Progress.eq_of_addText_eq_closed htext
  exact ⟨raw', hmode, hr ▸ hrun⟩

theorem readFrom_append_of_ok (h : readFrom options offset (.text raw) p cs = .ok root) :
    ∃ raw', ∀ rest, readFrom options offset (.text raw) p (cs ++ rest) =
      readFrom options (offset + byteSize cs) (.text raw') ⟨[], some root⟩ rest := by
  rcases closed_of_readFrom h with ⟨raw', hmode, hrun⟩
  refine ⟨raw', ?_⟩
  intro rest
  rw [readFrom_append, hrun, hmode]
  rfl

end ReadingOn

/-!
# Whole documents
-/

theorem ne_nil_of_read {options : ReadingOptions} {text : String} {root : Element}
    (h : read options text = .ok root) : text.toList ≠ [] := by
  intro hnil
  unfold read at h
  rw [hnil] at h
  cases h

/-- What is appended to a document comes after its first character, so it does not matter to a
byte order mark. -/
theorem exists_items_append {document : List Char} (h : document ≠ []) :
    ∃ body, (document = body ∨ document = '\uFEFF' :: body) ∧
      ∀ rest, items (document ++ rest) = itemsFrom 0 (.text []) (body ++ rest) := by
  cases document with
  | nil =>
      exact absurd rfl h
  | cons c cs =>
      by_cases hmark : c = '\uFEFF'
      · subst hmark
        exact ⟨cs, Or.inr rfl, fun _ => rfl⟩
      · refine ⟨c :: cs, Or.inl rfl, ?_⟩
        intro rest
        rcases items_eq (c :: cs ++ rest) with hitems | ⟨body, hbody, _⟩
        · exact hitems
        · exact absurd (List.cons.inj hbody).1 hmark

theorem exists_readFrom_of_read {options : ReadingOptions} {text : String} {root : Element}
    (h : read options text = .ok root) :
    ∃ body, (text.toList = body ∨ text.toList = '\uFEFF' :: body) ∧
      (∀ rest, items (text.toList ++ rest) = itemsFrom 0 (.text []) (body ++ rest)) ∧
      readFrom options 0 (.text []) {} body = .ok root := by
  rcases exists_items_append (ne_nil_of_read h) with ⟨body, hbody, hitems⟩
  refine ⟨body, hbody, hitems, ?_⟩
  have hwhole := hitems []
  rw [List.append_nil, List.append_nil] at hwhole
  unfold read at h
  rw [hwhole] at h
  exact h

/-- Appending to a document leaves its tree as it is, or there is a fault of the markup or a
second root in what is appended. -/
theorem read_append (config : Config) {text : String} {root : Element}
    (h : read config.reading text = .ok root) (more : String) :
    read config.reading (text ++ more) = .ok root ∨
      (∃ position fault, read config.reading (text ++ more) = .error (.markup position fault)) ∨
      ∃ second, read config.reading (text ++ more) = .error (.secondRoot root.name second) := by
  rcases exists_readFrom_of_read h with ⟨body, _, hitems, hbody⟩
  rcases readFrom_append_of_ok hbody with ⟨raw, hrest⟩
  have hread : read config.reading (text ++ more) =
      readFrom config.reading (0 + byteSize body) (.text raw) ⟨[], some root⟩ more.toList := by
    rw [← hrest more.toList]
    unfold read
    rw [String.toList_append, hitems]
    rfl
  rw [hread]
  exact readFrom_closed config.reading root _ _ _

theorem read_append_sibling :
    read ({} : Config).reading "<a>1</a>\n" = .ok ⟨"a", [], [], "1"⟩ ∧
      (read ({} : Config).reading ("<a>1</a>\n" ++ "<b/>") = .ok ⟨"a", [], [], "1"⟩ ∨
        (∃ position fault,
          read ({} : Config).reading ("<a>1</a>\n" ++ "<b/>") = .error (.markup position fault)) ∨
        ∃ second,
          read ({} : Config).reading ("<a>1</a>\n" ++ "<b/>") = .error (.secondRoot "a" second)) :=
  ⟨rfl, read_append {} rfl "<b/>"⟩

end Document
end XmlShape
