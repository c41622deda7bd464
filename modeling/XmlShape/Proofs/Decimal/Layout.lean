import XmlShape.Decimal.Layout
import XmlShape.Proofs.Text.Words

/-!
# Decimals as words

The text of a number is one word, whatever the number is.
-/

namespace XmlShape
namespace Decimal

open Text

theorem isDigit_of_mem_toString {n : Nat} {c : Char} (hc : c ∈ (toString n).toList) :
    c.isDigit = true := by
  have hdigits : c ∈ Nat.toDigits 10 n := by
    rw [← Nat.toList_repr]
    exact hc
  exact Nat.isDigit_of_mem_toDigits (by decide) (by decide) hdigits

theorem isWord_toString (n : Nat) : IsWord (toString n).toList := by
  constructor
  · intro hnil
    have hlength : 0 < (Nat.toDigits 10 n).length := Nat.length_toDigits_pos
    rw [← Nat.toList_repr] at hlength
    exact absurd (congrArg List.length hnil) (Nat.ne_of_gt hlength)
  · constructor
    · intro hspace
      exact absurd (isDigit_of_mem_toString hspace) (by decide)
    · intro hline
      exact absurd (isDigit_of_mem_toString hline) (by decide)

theorem eq_of_toString_eq {m n : Nat} (h : (toString m).toList = (toString n).toList) : m = n := by
  have hdigits : Nat.toDigits 10 m = Nat.toDigits 10 n := by
    rw [← Nat.toList_repr, ← Nat.toList_repr]
    exact h
  have hread := congrArg (Nat.ofDigitChars 10 · 0) hdigits
  simp only [Nat.ofDigitChars_ten_toDigits] at hread
  exact hread

theorem unbroken_zeros (n : Nat) : Unbroken (zeros n).toList := by
  rw [zeros, String.toList_ofList]
  constructor
  · intro hspace
    exact absurd (List.eq_of_mem_replicate hspace) (by decide)
  · intro hline
    exact absurd (List.eq_of_mem_replicate hline) (by decide)

theorem unbroken_of_subset {front back : List Char} (h : Unbroken back)
    (hsubset : ∀ c ∈ front, c ∈ back) : Unbroken front :=
  ⟨fun hspace => h.1 (hsubset _ hspace), fun hline => h.2 (hsubset _ hline)⟩

theorem isWord_withPoint {digits : String} (h : Unbroken digits.toList) (places : Nat) :
    IsWord (withPoint digits places).toList := by
  let padded := zeros (places + 1 - digits.length) ++ digits
  have hpadded : Unbroken padded.toList := by
    rw [String.toList_append, unbroken_append]
    exact ⟨unbroken_zeros _, h⟩
  have hwhole : Unbroken (padded.take (padded.length - places)).toString.toList := by
    apply unbroken_of_subset hpadded
    intro c hc
    rw [String.Slice.toString_eq, String.toList_copy_take] at hc
    exact List.mem_of_mem_take hc
  have hplaces : Unbroken (padded.drop (padded.length - places)).toString.toList := by
    apply unbroken_of_subset hpadded
    intro c hc
    rw [String.Slice.toString_eq, String.toList_copy_drop] at hc
    exact List.mem_of_mem_drop hc
  have hpoint : Unbroken ".".toList := ⟨by decide, by decide⟩
  rw [withPoint, String.toList_append, String.toList_append]
  constructor
  · simp
  · rw [unbroken_append, unbroken_append]
    exact ⟨⟨hwhole, hpoint⟩, hplaces⟩

theorem isWord_sign {negative : Bool} {text : String} (h : IsWord text.toList) :
    IsWord (sign negative ++ text).toList := by
  have hsign : Unbroken (sign negative).toList := by
    cases negative <;> exact ⟨by decide, by decide⟩
  rw [String.toList_append]
  constructor
  · exact List.append_ne_nil_of_right_ne_nil _ h.ne_nil
  · exact unbroken_append.mpr ⟨hsign, h.unbroken⟩

/-- Also what is no finite number is written as one word. -/
theorem isWord_fixed (places : Nat) (x : Float) : IsWord (fixed places x).toList := by
  unfold fixed
  split
  · apply isWord_sign
    exact isWord_withPoint (isWord_toString _).unbroken places
  · apply isWord_sign
    exact ⟨by decide, by decide, by decide⟩
  · exact ⟨by decide, by decide, by decide⟩

end Decimal
end XmlShape
