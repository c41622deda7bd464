import XmlShape.Markup.Fault
import XmlShape.Text.Size

/-!
# References

A reference stands for one character and is written `&name;`, `&#decimal;` or
`&#xhexadecimal;`. `unescape` replaces every reference of a text; `escape` writes the references
that a text needs.
-/

namespace XmlShape
namespace Markup

open Text

/-! # Character references -/

def digitValue? (base : Nat) (c : Char) : Option Nat :=
  let value? :=
    if '0' ≤ c ∧ c ≤ '9' then some (c.toNat - 48)
    else if 'a' ≤ c ∧ c ≤ 'f' then some (c.toNat - 87)
    else if 'A' ≤ c ∧ c ≤ 'F' then some (c.toNat - 55)
    else none
  value?.filter (· < base)

/-- Continues a number below `2 ^ 32` by further digits. A digit that does not fit is reported
before anything that follows it. -/
def digitsFrom (base : Nat) (value : Nat) : List Char → Except DigitFault Nat
  | [] => .ok value
  | c :: cs =>
    match digitValue? base c with
    | none => .error .invalid
    | some digit =>
      let next := value * base + digit
      if next < Nat.pow 2 32 then digitsFrom base next cs else .error .tooLarge

def number (base : Nat) : List Char → Except CharacterFault Nat
  | [] => .error (.digits .empty)
  | c :: cs =>
    if c = '+' ∨ c = '-' then .error .sign
    else (digitsFrom base 0 (c :: cs)).mapError .digits

def scalar (code : Nat) : Except CharacterFault Char :=
  if code = 0 then .error .zero
  else if code.isValidChar then .ok (Char.ofNat code)
  else .error (.notScalar code)

def character : List Char → Except CharacterFault Char
  | 'x' :: digits => number 16 digits >>= scalar
  | digits => number 10 digits >>= scalar

/-! # Named references -/

def entity? : List Char → Option Char
  | ['l', 't'] => some '<'
  | ['g', 't'] => some '>'
  | ['a', 'm', 'p'] => some '&'
  | ['a', 'p', 'o', 's'] => some '\x27'
  | ['q', 'u', 'o', 't'] => some '\x22'
  | _ => none

def resolve (start : Nat) : List Char → Except ReferenceFault Char
  | '#' :: code => (character code).mapError .character
  | name =>
    match entity? name with
    | some c => .ok c
    | none =>
      .error (.unknownEntity (start + 1) (start + 1 + byteSize name) (String.ofList name))

/-- Reads on from `offset`. Inside a reference, `name?` holds the offset of its `&` and what has
been read of its name, newest first. -/
def unescapeFrom (offset : Nat) (name? : Option (Nat × List Char)) :
    List Char → Except ReferenceFault (List Char)
  | [] =>
    match name? with
    | none => .ok []
    | some (start, _) => .error (.unterminated start offset)
  | c :: cs =>
    match name? with
    | none =>
      if c = '&' then unescapeFrom (offset + c.utf8Size) (some (offset, [])) cs
      else (c :: ·) <$> unescapeFrom (offset + c.utf8Size) none cs
    | some (start, name) =>
      if c = ';' then do
        let value ← resolve start name.reverse
        (value :: ·) <$> unescapeFrom (offset + c.utf8Size) none cs
      else if c = '&' then .error (.unterminated start (offset + byteSize (c :: cs)))
      else unescapeFrom (offset + c.utf8Size) (some (start, c :: name)) cs

def unescape (raw : List Char) : Except ReferenceFault (List Char) :=
  unescapeFrom 0 none raw

/-! # Writing references -/

def escape (special : Char → Bool) : List Char → List Char
  | [] => []
  | c :: cs =>
    let written :=
      if special c then
        match c with
        | '<' => ['&', 'l', 't', ';']
        | '>' => ['&', 'g', 't', ';']
        | '&' => ['&', 'a', 'm', 'p', ';']
        | '\x27' => ['&', 'a', 'p', 'o', 's', ';']
        | '\x22' => ['&', 'q', 'u', 'o', 't', ';']
        | _ => [c]
      else [c]
    written ++ escape special cs

end Markup
end XmlShape
