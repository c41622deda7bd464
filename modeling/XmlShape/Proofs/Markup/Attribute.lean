import XmlShape.Markup.Attribute

/-!
# Distinct attributes

A key is compared with those before it as soon as it ends, so the attributes that are read from a
tag have distinct keys. The reader passes over one character at a time: it goes on with what it is
reading, ends a key or ends a value.
-/

namespace XmlShape
namespace Markup

def AttributeMode.pending? : AttributeMode → Option (List Char)
  | .quote pending => some pending
  | .value pending _ _ => some pending
  | _ => none

/-- How attributes are read from `cs` after a character that has been passed over. -/
inductive Advances (offset : Nat) (seen : List (List Char × Nat)) (mode : AttributeMode)
    (cs : List Char) : List (String × String) → Prop where
  | goesOn {mode' : AttributeMode} {attributes : List (String × String)}
      (hread : attributesFrom offset seen mode' cs = .ok attributes)
      (hpending : mode'.pending? = mode.pending?) :
      Advances offset seen mode cs attributes
  | endsKey {mode' : AttributeMode} {attributes : List (String × String)} {start : Nat}
      {key : List Char} (hpending : mode.pending? = none) (hpending' : mode'.pending? = some key)
      (hnew : seen.lookup key = none)
      (hread : attributesFrom offset ((key, start) :: seen) mode' cs = .ok attributes) :
      Advances offset seen mode cs attributes
  | endsValue {mode' : AttributeMode} {attributes : List (String × String)} {key : List Char}
      {value : String} (hpending : mode.pending? = some key) (hpending' : mode'.pending? = none)
      (hread : attributesFrom offset seen mode' cs = .ok attributes) :
      Advances offset seen mode cs ((String.ofList key, value) :: attributes)

section Steps

variable {offset : Nat} {seen : List (List Char × Nat)} {mode : AttributeMode} {c : Char}
  {cs : List Char} {attributes : List (String × String)}

theorem advances_endsKey {next start : Nat} {key : List Char} (hpending : mode.pending? = none)
    (h : closeKey seen start key >>= (attributesFrom next · (.quote key) cs) = .ok attributes) :
    Advances next seen mode cs attributes := by
  unfold closeKey at h
  cases hlookup : seen.lookup key with
  | none =>
      rw [hlookup] at h
      exact .endsKey hpending rfl hlookup h
  | some previous =>
      rw [hlookup] at h
      cases h

theorem advances_endsValue {next : Nat} {key : List Char} {raw : List Char}
    (hpending : mode.pending? = some key)
    (h : ((unescape raw).mapError .reference >>= fun value =>
      ((String.ofList key, String.ofList value) :: ·) <$> attributesFrom next seen .gap cs) =
        .ok attributes) : Advances next seen mode cs attributes := by
  cases hvalue : (unescape raw).mapError Fault.reference with
  | error fault =>
      rw [hvalue] at h
      cases h
  | ok value =>
      rw [hvalue] at h
      cases hrest : attributesFrom next seen .gap cs with
      | error fault =>
          rw [hrest] at h
          cases h
      | ok rest =>
          rw [hrest] at h
          cases h
          exact .endsValue hpending rfl hrest

theorem advances_of_eq_ok (h : attributesFrom offset seen mode (c :: cs) = .ok attributes) :
    Advances (offset + c.utf8Size) seen mode cs attributes := by
  cases mode with
  | gap =>
      simp only [attributesFrom] at h
      split at h
      · exact .goesOn h rfl
      · exact .goesOn h rfl
  | key start raw =>
      simp only [attributesFrom] at h
      split at h
      · exact advances_endsKey rfl h
      · split at h
        · exact .goesOn h rfl
        · exact .goesOn h rfl
  | equals start raw =>
      simp only [attributesFrom] at h
      split at h
      · exact .goesOn h rfl
      · split at h
        · exact advances_endsKey rfl h
        · cases h
  | quote key =>
      simp only [attributesFrom] at h
      split at h
      · exact .goesOn h rfl
      · split at h
        · exact .goesOn h rfl
        · cases h
  | value key quote raw =>
      simp only [attributesFrom] at h
      split at h
      · exact advances_endsValue rfl h
      · exact .goesOn h rfl

end Steps

structure Fresh (seen : List (List Char × Nat)) (attributes : List (String × String)) : Prop where
  distinct : (attributes.map Prod.fst).Nodup
  unseen : ∀ key, seen.lookup key ≠ none → String.ofList key ∉ attributes.map Prod.fst

/-- A key that is pending is the first of those to come. -/
def FreshAfter (seen : List (List Char × Nat)) (attributes : List (String × String)) :
    Option (List Char) → Prop
  | none => Fresh seen attributes
  | some key => ∃ value rest, attributes = (String.ofList key, value) :: rest ∧ Fresh seen rest

theorem Fresh.cons {seen : List (List Char × Nat)} {key : List Char} {start : Nat}
    {attributes : List (String × String)} (hnew : seen.lookup key = none)
    (h : Fresh ((key, start) :: seen) attributes) (value : String) :
    Fresh seen ((String.ofList key, value) :: attributes) := by
  have hkey : String.ofList key ∉ attributes.map Prod.fst := by
    apply h.unseen
    simp
  constructor
  · rw [List.map_cons, List.nodup_cons]
    exact ⟨hkey, h.distinct⟩
  · intro other hother
    have hne : other ≠ key := by
      rintro rfl
      exact hother hnew
    rw [List.map_cons, List.mem_cons, not_or]
    refine ⟨fun heq => hne (String.ofList_injective heq), ?_⟩
    apply h.unseen
    rwa [List.lookup_cons, beq_eq_false_iff_ne.mpr hne]

theorem freshAfter_attributesFrom {offset : Nat} {seen : List (List Char × Nat)}
    {mode : AttributeMode} {cs : List Char} {attributes : List (String × String)}
    (h : attributesFrom offset seen mode cs = .ok attributes) :
    FreshAfter seen attributes mode.pending? := by
  induction cs generalizing offset seen mode attributes with
  | nil =>
      cases mode with
      | gap =>
          cases h
          exact Fresh.mk List.nodup_nil fun _ _ => List.not_mem_nil
      | _ =>
          cases h
  | cons c cs ih =>
      cases advances_of_eq_ok h with
      | goesOn hread hpending =>
          rw [← hpending]
          exact ih hread
      | endsKey hpending hpending' hnew hread =>
          have hrest := ih hread
          rw [hpending'] at hrest
          obtain ⟨value, rest, rfl, hfresh⟩ := hrest
          rw [hpending]
          exact hfresh.cons hnew value
      | endsValue hpending hpending' hread =>
          have hrest := ih hread
          rw [hpending'] at hrest
          rw [hpending]
          exact ⟨_, _, rfl, hrest⟩

theorem nodup_tagAttributes {content : List Char} {attributes : List (String × String)}
    (h : tagAttributes content = .ok attributes) : (attributes.map Prod.fst).Nodup :=
  (freshAfter_attributesFrom h).distinct

end Markup
end XmlShape
