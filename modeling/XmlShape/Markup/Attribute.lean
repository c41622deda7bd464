import XmlShape.Markup.Reference
import XmlShape.Text.Blank

/-!
# Attributes

The inside of a tag is a name followed by attributes `key="value"`. The name ends at the first
space; the attributes are read one character at a time, each value being unescaped as soon as
its closing quote is met, so the first fault in reading order is the one reported.
-/

namespace XmlShape
namespace Markup

open Text

inductive AttributeMode where
  | gap
  | key (start : Nat) (raw : List Char)
  /-- Past the key, where only `=` may follow. -/
  | equals (start : Nat) (raw : List Char)
  /-- Past the `=`, where a quote must follow. -/
  | quote (key : List Char)
  | value (key : List Char) (quote : Char) (raw : List Char)

/-- The end of a key: a key must not repeat one of those `seen` with the offsets they begin at. -/
def closeKey (seen : List (List Char × Nat)) (start : Nat) (key : List Char) :
    Except Fault (List (List Char × Nat)) :=
  match seen.lookup key with
  | some previous => .error (.attribute (.duplicated start previous))
  | none => .ok ((key, start) :: seen)

def attributesFrom (offset : Nat) (seen : List (List Char × Nat)) (mode : AttributeMode) :
    List Char → Except Fault (List (String × String))
  | [] =>
    match mode with
    | .gap => .ok []
    | .key .. => .error (.attribute (.expectedEquals offset))
    | .equals .. => .error (.attribute (.expectedEquals offset))
    | .quote _ => .error (.attribute (.expectedValue offset))
    | .value _ quote _ => .error (.attribute (.expectedQuote offset quote))
  | c :: cs =>
    let next := offset + c.utf8Size
    match mode with
    | .gap =>
      if isSpace c then attributesFrom next seen .gap cs
      else attributesFrom next seen (.key offset [c]) cs
    | .key start raw =>
      if c = '=' then do
        attributesFrom next (← closeKey seen start raw.reverse) (.quote raw.reverse) cs
      else if isSpace c then attributesFrom next seen (.equals start raw) cs
      else attributesFrom next seen (.key start (c :: raw)) cs
    | .equals start raw =>
      if isSpace c then attributesFrom next seen (.equals start raw) cs
      else if c = '=' then do
        attributesFrom next (← closeKey seen start raw.reverse) (.quote raw.reverse) cs
      else .error (.attribute (.expectedEquals offset))
    | .quote key =>
      if isSpace c then attributesFrom next seen (.quote key) cs
      else if c = '\x22' ∨ c = '\x27' then attributesFrom next seen (.value key c []) cs
      else .error (.attribute (.unquotedValue offset))
    | .value key quote raw =>
      if c = quote then do
        let value ← (unescape raw.reverse).mapError .reference
        ((String.ofList key, String.ofList value) :: ·) <$> attributesFrom next seen .gap cs
      else attributesFrom next seen (.value key quote (c :: raw)) cs

def tagName (content : List Char) : List Char :=
  content.takeWhile fun c => !isSpace c

def tagAttributes (content : List Char) : Except Fault (List (String × String)) :=
  attributesFrom (byteSize (tagName content)) [] .gap (content.dropWhile fun c => !isSpace c)

end Markup
end XmlShape
