import XmlShape.Markup.Token
import XmlShape.Text.Size

/-!
# Running the tokenizer over a part of a document

The machine that cuts a document is run over a part of it, without ending the document. A part
that is complete markup takes the machine from text to text and leaves one token behind; this
module collects the parts of that kind whose inside the machine does not look into.
-/

namespace XmlShape
namespace Markup

open Text

/-- Reads a part of a document in `mode`: the items it completes and the mode after it. -/
def run (offset : Nat) (mode : Mode) : List Char → List Item × Mode
  | [] => ([], mode)
  | c :: cs =>
      let first := step offset mode c
      let rest := run (offset + c.utf8Size) first.2 cs
      (first.1 ++ rest.1, rest.2)

@[simp] theorem run_nil (offset : Nat) (mode : Mode) : run offset mode [] = ([], mode) := rfl

theorem run_cons (offset : Nat) (mode : Mode) (c : Char) (cs : List Char) :
    run offset mode (c :: cs) =
      ((step offset mode c).1 ++ (run (offset + c.utf8Size) (step offset mode c).2 cs).1,
        (run (offset + c.utf8Size) (step offset mode c).2 cs).2) := rfl

theorem run_append (offset : Nat) (mode : Mode) (xs ys : List Char) :
    run offset mode (xs ++ ys) =
      ((run offset mode xs).1 ++ (run (offset + byteSize xs) (run offset mode xs).2 ys).1,
        (run (offset + byteSize xs) (run offset mode xs).2 ys).2) := by
  induction xs generalizing offset mode with
  | nil =>
      rfl
  | cons c xs ih =>
      rw [List.cons_append, run_cons, ih, run_cons]
      simp only [byteSize, List.append_assoc, Nat.add_assoc]

/-- A part that completes nothing only changes the mode. -/
theorem run_append_of_quiet {offset : Nat} {mode next : Mode} {xs : List Char}
    (h : run offset mode xs = ([], next)) (ys : List Char) :
    run offset mode (xs ++ ys) = run (offset + byteSize xs) next ys := by
  rw [run_append, h]
  rfl

theorem itemsFrom_append (offset : Nat) (mode : Mode) (xs ys : List Char) :
    itemsFrom offset mode (xs ++ ys) =
      (run offset mode xs).1 ++
        itemsFrom (offset + byteSize xs) (run offset mode xs).2 ys := by
  induction xs generalizing offset mode with
  | nil =>
      rfl
  | cons c xs ih =>
      show (step offset mode c).1 ++
          itemsFrom (offset + c.utf8Size) (step offset mode c).2 (xs ++ ys) = _
      rw [ih, run_cons]
      simp only [byteSize, List.append_assoc, Nat.add_assoc]

/-!
# What a character does

A character completes nothing, or it completes a token, or it stops the machine with a fault. An
empty text is left behind only where something has been completed.
-/

inductive Outcome : List Item × Mode → Prop where
  | quiet {next : Mode} (going : next ≠ .stopped) (filled : next ≠ .text []) : Outcome ([], next)
  | token {position : Nat} {token : Token} {next : Mode} (going : next ≠ .stopped) :
      Outcome ([.token position token], next)
  | fault {position : Nat} {fault : Fault} : Outcome ([.fault position fault], .stopped)

theorem Outcome.exists_fault {result : List Item × Mode} (h : Outcome result)
    (hstopped : result.2 = .stopped) : ∃ position fault, .fault position fault ∈ result.1 := by
  cases h with
  | quiet going filled =>
      exact absurd hstopped going
  | token going =>
      exact absurd hstopped going
  | fault =>
      exact ⟨_, _, List.mem_cons_self⟩

theorem Outcome.items_ne_nil {result : List Item × Mode} (h : Outcome result)
    (hempty : result.2 = .text []) : result.1 ≠ [] := by
  cases h with
  | quiet going filled =>
      exact absurd hempty filled
  | token going =>
      exact List.cons_ne_nil _ _
  | fault =>
      exact List.cons_ne_nil _ _

theorem outcome_finishWith (item : Item) : Outcome (finishWith item) := by
  cases item with
  | token position token =>
      exact .token nofun
  | fault position fault =>
      exact .fault

theorem outcome_tagStep (start : Nat) (quote? : Option Char) (raw : List Char) (c : Char) :
    Outcome (tagStep start quote? raw c) := by
  cases quote? with
  | none =>
      simp only [tagStep]
      split
      · exact .token nofun
      · split <;> exact .quiet nofun nofun
  | some quote =>
      simp only [tagStep]
      split <;> exact .quiet nofun nofun

theorem outcome_step {mode : Mode} (hmode : mode ≠ .stopped) (offset : Nat) (c : Char) :
    Outcome (step offset mode c) := by
  cases mode with
  | stopped =>
      exact absurd rfl hmode
  | text raw =>
      simp only [step]
      split
      · exact .token nofun
      · exact .quiet nofun nofun
  | opened start =>
      simp only [step]
      split
      · exact .quiet nofun nofun
      · split
        · exact .quiet nofun nofun
        · exact outcome_tagStep start none [] c
  | tag start quote? raw =>
      exact outcome_tagStep start quote? raw c
  | instruction start raw =>
      simp only [step]
      split
      · split
        · exact .fault
        · exact .token nofun
      · exact .quiet nofun nofun
  | declaration start =>
      simp only [step]
      split
      · exact .quiet nofun nofun
      · split
        · exact .quiet nofun nofun
        · split
          · exact .quiet nofun nofun
          · exact .fault
  | comment start raw =>
      simp only [step]
      split
      · exact outcome_finishWith _
      · exact .quiet nofun nofun
  | cdata start raw =>
      simp only [step]
      split
      · exact outcome_finishWith _
      · exact .quiet nofun nofun
  | doctype start nested raw =>
      simp only [step]
      split
      · cases nested with
        | zero =>
            exact outcome_finishWith _
        | succ n =>
            exact .quiet nofun nofun
      · exact .quiet nofun nofun

/-!
# Where a reading ends

Every mode but that of a text is left with a fault at the end of the document, and the machine has
not stopped without one.
-/

theorem itemsFrom_eq (offset : Nat) (mode : Mode) (cs : List Char) :
    itemsFrom offset mode cs =
      (run offset mode cs).1 ++ (run offset mode cs).2.finish (offset + byteSize cs) := by
  have h := itemsFrom_append offset mode cs []
  rw [List.append_nil] at h
  exact h

theorem exists_fault_of_run_stopped {offset : Nat} {mode : Mode} {cs : List Char}
    (hmode : mode ≠ .stopped) (h : (run offset mode cs).2 = .stopped) :
    ∃ position fault, .fault position fault ∈ (run offset mode cs).1 := by
  induction cs generalizing offset mode with
  | nil =>
      exact absurd h hmode
  | cons c cs ih =>
      rw [run_cons] at h ⊢
      by_cases hnext : (step offset mode c).2 = .stopped
      · rcases (outcome_step hmode offset c).exists_fault hnext with ⟨position, fault, hmem⟩
        exact ⟨position, fault, List.mem_append_left _ hmem⟩
      · rcases ih hnext h with ⟨position, fault, hmem⟩
        exact ⟨position, fault, List.mem_append_right _ hmem⟩

theorem run_stopped (offset : Nat) (cs : List Char) : run offset .stopped cs = ([], .stopped) := by
  induction cs generalizing offset with
  | nil =>
      rfl
  | cons c cs ih =>
      rw [run_cons]
      exact ih (offset + c.utf8Size)

theorem items_ne_nil_of_run {offset : Nat} {mode : Mode} {cs : List Char} (hne : cs ≠ [])
    (h : (run offset mode cs).2 = .text []) : (run offset mode cs).1 ≠ [] := by
  have hmode : mode ≠ .stopped := by
    intro hstopped
    rw [hstopped, run_stopped] at h
    cases h
  induction cs generalizing offset mode with
  | nil =>
      exact absurd rfl hne
  | cons c cs ih =>
      rw [run_cons] at h ⊢
      intro hnil
      have hnil := List.append_eq_nil_iff.mp hnil
      cases cs with
      | nil =>
          exact (outcome_step hmode offset c).items_ne_nil h hnil.1
      | cons d cs =>
          have hnext : (step offset mode c).2 ≠ .stopped := by
            intro hstopped
            rw [hstopped, run_stopped] at h
            cases h
          exact ih (List.cons_ne_nil d cs) h hnext hnil.2

theorem exists_text_of_no_fault {offset : Nat} {mode : Mode} {cs : List Char}
    (hmode : mode ≠ .stopped)
    (h : ∀ position fault, .fault position fault ∉ itemsFrom offset mode cs) :
    ∃ raw, (run offset mode cs).2 = .text raw := by
  rw [itemsFrom_eq] at h
  have hrun : (run offset mode cs).2 ≠ .stopped := by
    intro hstopped
    rcases exists_fault_of_run_stopped hmode hstopped with ⟨position, fault, hmem⟩
    exact h position fault (List.mem_append_left _ hmem)
  cases hlast : (run offset mode cs).2 with
  | text raw =>
      exact ⟨raw, rfl⟩
  | stopped =>
      exact absurd hlast hrun
  | _ =>
      rw [hlast] at h
      exact absurd (List.mem_append_right _ List.mem_cons_self) (h _ _)

/-!
# Collecting characters

In most modes a character is put before those read so far, and nothing is completed.
-/

theorem run_collect (mode : List Char → Mode) {cs : List Char}
    (h : ∀ c ∈ cs, ∀ offset raw, step offset (mode raw) c = ([], mode (c :: raw)))
    (offset : Nat) (raw : List Char) :
    run offset (mode raw) cs = ([], mode (cs.reverse ++ raw)) := by
  induction cs generalizing offset raw with
  | nil =>
      rfl
  | cons c cs ih =>
      have htail : ∀ d ∈ cs, ∀ offset raw, step offset (mode raw) d = ([], mode (d :: raw)) := by
        intro d hd
        exact h d (List.mem_cons_of_mem c hd)
      rw [run_cons, h c List.mem_cons_self]
      simp [ih htail]

theorem run_until (mode : List Char → Mode) {stop : Char} {cs : List Char} (hstop : stop ∉ cs)
    (h : ∀ c, c ≠ stop → ∀ offset raw, step offset (mode raw) c = ([], mode (c :: raw)))
    (offset : Nat) (raw : List Char) :
    run offset (mode raw) cs = ([], mode (cs.reverse ++ raw)) := by
  apply run_collect mode
  intro c hc
  apply h c
  intro heq
  exact hstop (heq ▸ hc)

theorem run_text {cs : List Char} (h : '<' ∉ cs) (offset : Nat) (raw : List Char) :
    run offset (.text raw) cs = ([], .text (cs.reverse ++ raw)) := by
  apply run_until .text h
  intro c hne offset raw
  simp [step, hne]

theorem run_tag_quoted {quote : Char} {cs : List Char} (h : quote ∉ cs)
    (offset start : Nat) (raw : List Char) :
    run offset (.tag start (some quote) raw) cs =
      ([], .tag start (some quote) (cs.reverse ++ raw)) := by
  apply run_until (.tag start (some quote)) h
  intro c hne offset raw
  simp [step, tagStep, hne]

theorem run_instruction {cs : List Char} (h : '>' ∉ cs) (offset start : Nat) (raw : List Char) :
    run offset (.instruction start raw) cs = ([], .instruction start (cs.reverse ++ raw)) := by
  apply run_until (.instruction start) h
  intro c hne offset raw
  simp [step, hne]

theorem run_comment {cs : List Char} (h : '>' ∉ cs) (offset start : Nat) (raw : List Char) :
    run offset (.comment start raw) cs = ([], .comment start (cs.reverse ++ raw)) := by
  apply run_until (.comment start) h
  intro c hne offset raw
  simp [step, hne]

/-!
# Collecting the inside of a tag
-/

/-- A part of a tag with all its quotes closed, which leaves the tag open. -/
def InsideTag (cs : List Char) : Prop :=
  ∀ offset start raw,
    run offset (.tag start none raw) cs = ([], .tag start none (cs.reverse ++ raw))

theorem insideTag_nil : InsideTag [] := by
  intro offset start raw
  rfl

theorem insideTag_append {xs ys : List Char} (hx : InsideTag xs) (hy : InsideTag ys) :
    InsideTag (xs ++ ys) := by
  intro offset start raw
  rw [run_append_of_quiet (hx offset start raw), hy]
  simp

theorem insideTag_plain {cs : List Char}
    (h : ∀ c ∈ cs, c ≠ '>' ∧ c ≠ '\x22' ∧ c ≠ '\x27') : InsideTag cs := by
  intro offset start raw
  apply run_collect (.tag start none)
  intro c hc offset raw
  simp [step, tagStep, h c hc]

theorem insideTag_quoted {quote : Char} {cs : List Char}
    (hquote : quote = '\x22' ∨ quote = '\x27') (h : quote ∉ cs) :
    InsideTag (quote :: (cs ++ [quote])) := by
  intro offset start raw
  have hopen : ∀ offset raw, step offset (.tag start none raw) quote =
      ([], .tag start (some quote) (quote :: raw)) := by
    intro offset raw
    rcases hquote with rfl | rfl <;> rfl
  rw [run_cons, hopen, run_append_of_quiet (run_tag_quoted h _ start (quote :: raw))]
  simp [run_cons, step, tagStep]

/-!
# Collecting the body of a section
-/

def cdataOpening : List Char :=
  ['[', 'A', 'T', 'A', 'D', 'C', '[', '!']

/-- The end of a section can only be where `]]>` is: what has been `seen` of its body and what is
still to come hold none. -/
theorem run_cdata {body : List Char} (seen : List Char)
    (h : ¬ [']', ']', '>'] <:+: seen ++ body) (offset start : Nat) :
    run offset (.cdata start (seen.reverse ++ cdataOpening)) body =
      ([], .cdata start (body.reverse ++ (seen.reverse ++ cdataOpening))) := by
  induction body generalizing seen offset with
  | nil =>
      rfl
  | cons c body ih =>
      have hstep : step offset (.cdata start (seen.reverse ++ cdataOpening)) c =
          ([], .cdata start (c :: (seen.reverse ++ cdataOpening))) := by
        have hopen : ¬ (c = '>' ∧ (seen.reverse ++ cdataOpening).take 2 = [']', ']']) := by
          rintro ⟨rfl, htake⟩
          apply h
          -- the two brackets belong to the body: the opening of the section ends in `[`
          match hseen : seen.reverse with
          | [] =>
              rw [hseen] at htake
              simp [cdataOpening] at htake
          | [x] =>
              rw [hseen] at htake
              simp [cdataOpening] at htake
          | x :: y :: older =>
              rw [hseen] at htake
              simp only [List.cons_append, List.take_succ_cons, List.take_zero,
                List.cons.injEq, and_true] at htake
              obtain ⟨rfl, rfl⟩ := htake
              have hsplit : seen = older.reverse ++ [']', ']'] := by
                rw [← List.reverse_reverse seen, hseen]
                simp
              exact ⟨older.reverse, body, by simp [hsplit]⟩
        simp [step, hopen]
      have htail : ¬ [']', ']', '>'] <:+: (seen ++ [c]) ++ body := by
        simpa using h
      have hrest := ih (seen ++ [c]) htail (offset + c.utf8Size)
      simp only [List.reverse_append, List.reverse_singleton, List.cons_append,
        List.nil_append] at hrest
      rw [run_cons, hstep]
      simp [hrest]

/-!
# Complete markup

Markup that follows a text ends that text and completes one token of its own; both are reported
at its `<`.
-/

/-- Markup that, wherever it stands in the text of a document, is read as the given token. -/
def Spells (markup : List Char) (token : Token) : Prop :=
  ∀ offset raw,
    run offset (.text raw) markup =
      ([.token offset (.text raw.reverse), .token offset token], .text [])

theorem spells_of_opened {rest : List Char} {token : Token}
    (h : ∀ offset start, run offset (.opened start) rest = ([.token start token], .text [])) :
    Spells ('<' :: rest) token := by
  intro offset raw
  simp [run_cons, step, h]

theorem spells_tag {c : Char} {cs : List Char} (hbang : c ≠ '!') (hmark : c ≠ '?')
    (h : InsideTag (c :: cs)) : Spells ('<' :: (c :: cs ++ ['>'])) (tagToken (c :: cs)) := by
  apply spells_of_opened
  intro offset start
  have hfirst : run offset (.opened start) (c :: cs ++ ['>']) =
      run offset (.tag start none []) (c :: cs ++ ['>']) := by
    simp [run_cons, step, hbang, hmark]
  rw [hfirst, run_append_of_quiet (h offset start [])]
  simp [run_cons, step, tagStep]

theorem spells_instruction {body : List Char} (hne : body ≠ []) (hend : '>' ∉ body) :
    Spells ('<' :: '?' :: (body ++ ['?', '>'])) .ignored := by
  apply spells_of_opened
  intro offset start
  have hlen : body.length ≠ 0 := by
    simpa using hne
  rw [run_cons]
  simp [step, run_append, run_instruction hend, run_cons, hlen]

theorem spells_comment {body : List Char} (h : '>' ∉ body) :
    Spells ('<' :: '!' :: '-' :: '-' :: (body ++ ['-', '-', '>'])) .ignored := by
  apply spells_of_opened
  intro offset start
  have hopen : run offset (.opened start) ['!', '-'] = ([], .comment start ['-', '!']) := rfl
  have hbody : '>' ∉ '-' :: body := by
    simpa using h
  show run offset (.opened start) (['!', '-'] ++ (('-' :: body) ++ ['-', '-', '>'])) = _
  rw [run_append_of_quiet hopen, run_append_of_quiet (run_comment hbody _ _ _)]
  simp [run_cons, step, closeComment, beginsWith, finishWith]

theorem spells_cdata {body : List Char} (h : ¬ [']', ']', '>'] <:+: body) :
    Spells ('<' :: '!' :: '[' :: 'C' :: 'D' :: 'A' :: 'T' :: 'A' :: '[' ::
      (body ++ [']', ']', '>'])) (.cdata body) := by
  apply spells_of_opened
  intro offset start
  have hopen : run offset (.opened start) ['!', '[', 'C', 'D', 'A', 'T', 'A', '['] =
      ([], .cdata start cdataOpening) := rfl
  have hbody : ∀ offset, run offset (.cdata start cdataOpening) body =
      ([], .cdata start (body.reverse ++ cdataOpening)) := by
    intro offset
    simpa using run_cdata [] (by simpa using h) offset start
  show run offset (.opened start) (['!', '[', 'C', 'D', 'A', 'T', 'A', '['] ++
    (body ++ [']', ']', '>'])) = _
  rw [run_append_of_quiet hopen, run_append_of_quiet (hbody _)]
  simp [run_cons, step, closeCData, finishWith, cdataOpening]

end Markup
end XmlShape
