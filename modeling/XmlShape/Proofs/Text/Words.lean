import Mathlib.Data.List.Basic
import XmlShape.Text.Size

/-!
# Words of a line

The words of a line stand between its spaces. They do not change with the number of spaces, so the
words of a padded text are those of the text.
-/

namespace XmlShape
namespace Text

/-- Neither a space nor the end of a line is among the characters. -/
def Unbroken (cs : List Char) : Prop :=
  ' ' ∉ cs ∧ '\n' ∉ cs

structure IsWord (cs : List Char) : Prop where
  ne_nil : cs ≠ []
  unbroken : Unbroken cs

theorem unbroken_append {front back : List Char} :
    Unbroken (front ++ back) ↔ Unbroken front ∧ Unbroken back := by
  simp only [Unbroken, List.mem_append, not_or]
  exact and_and_and_comm

def words (cs : List Char) : List (List Char) :=
  (cs.splitOnP (· == ' ')).filter (· ≠ [])

theorem words_nil : words [] = [] :=
  rfl

theorem words_space (cs : List Char) : words (' ' :: cs) = words cs := by
  rw [words, ← List.nil_append (' ' :: cs), List.splitOnP_append_cons_of_forall_mem]
  · rfl
  · simp
  · rfl

theorem words_spaces (n : Nat) (cs : List Char) :
    words (List.replicate n ' ' ++ cs) = words cs := by
  induction n with
  | zero =>
      rfl
  | succ n ih =>
      rw [List.replicate_succ, List.cons_append, words_space, ih]

theorem not_isSpace_of_mem {w : List Char} (hw : Unbroken w) :
    ∀ c ∈ w, (c == ' ') = false := by
  intro c hc
  rw [beq_eq_false_iff_ne]
  rintro rfl
  exact hw.1 hc

theorem words_word {w : List Char} (hw : IsWord w) : words w = [w] := by
  rw [words, List.splitOnP_eq_singleton (not_isSpace_of_mem hw.unbroken), List.filter_singleton]
  simp [hw.ne_nil]

theorem words_word_space {w : List Char} (hw : IsWord w) (cs : List Char) :
    words (w ++ ' ' :: cs) = w :: words cs := by
  rw [words, List.splitOnP_append_cons_of_forall_mem (not_isSpace_of_mem hw.unbroken) ' ' rfl,
    List.filter_cons_of_pos (by simp [hw.ne_nil])]
  rfl

theorem words_word_spaces {w : List Char} (hw : IsWord w) (n : Nat) (cs : List Char) :
    words (w ++ List.replicate n ' ' ++ ' ' :: cs) = w :: words cs := by
  cases n with
  | zero =>
      rw [List.replicate_zero, List.append_nil, words_word_space hw]
  | succ n =>
      rw [List.append_assoc, List.replicate_succ, List.cons_append, words_word_space hw,
        words_spaces, words_space]

theorem words_word_end {w : List Char} (hw : IsWord w) (n : Nat) :
    words (w ++ List.replicate n ' ') = [w] := by
  cases n with
  | zero =>
      rw [List.replicate_zero, List.append_nil, words_word hw]
  | succ n =>
      rw [List.replicate_succ, words_word_space hw, ← List.append_nil (List.replicate n ' '),
        words_spaces, words_nil]

/-!
# Padding
-/

theorem toList_padRight (width : Nat) (text : String) :
    (padRight width text).toList =
      text.toList ++ List.replicate (width - text.length) ' ' := by
  rw [padRight, String.toList_append, String.toList_ofList]

theorem toList_padLeft (width : Nat) (text : String) :
    (padLeft width text).toList =
      List.replicate (width - text.length) ' ' ++ text.toList := by
  rw [padLeft, String.toList_append, String.toList_ofList]

end Text
end XmlShape
