import XmlShape.Data.Json.Number

/-!
# Tokens of JSON

A JSON text is cut into brackets, separators, strings and words, a word being a number, `true`,
`false` or `null`.
-/

namespace XmlShape
namespace Data
namespace Json

inductive Token where
  | beginList
  | endList
  | beginRecord
  | endRecord
  | comma
  | colon
  | text (s : String)
  | word (cs : List Char)
deriving DecidableEq, Repr

inductive Mode where
  | between
  | word (raw : List Char)
  | text (raw : List Char)
  | escape (raw : List Char)
  /-- In the digits of an escaped code unit. A leading surrogate that came before is kept. -/
  | unit (raw : List Char) (lead? : Option Nat) (value count : Nat)
  /-- After a leading surrogate, where only another escaped code unit may follow. -/
  | lead (raw : List Char) (lead : Nat) (backslash : Bool)

def isGap (c : Char) : Bool :=
  c == ' ' || c == '\t' || c == '\n' || c == '\r'

def isWordChar (c : Char) : Bool :=
  c.isAlphanum || c == '+' || c == '-' || c == '.'

def separator? (c : Char) : Option Token :=
  match c with
  | '[' => some .beginList
  | ']' => some .endList
  | '{' => some .beginRecord
  | '}' => some .endRecord
  | ',' => some .comma
  | ':' => some .colon
  | _ => none

def escaped? (c : Char) : Option Char :=
  match c with
  | '\x22' => some '\x22'
  | '\\' => some '\\'
  | '/' => some '/'
  | 'b' => some '\x08'
  | 'f' => some '\x0c'
  | 'n' => some '\n'
  | 'r' => some '\r'
  | 't' => some '\t'
  | _ => none

def hexValue? (c : Char) : Option Nat :=
  if '0' ≤ c ∧ c ≤ '9' then some (c.toNat - 48)
  else if 'a' ≤ c ∧ c ≤ 'f' then some (c.toNat - 87)
  else if 'A' ≤ c ∧ c ≤ 'F' then some (c.toNat - 55)
  else none

/-- What a complete code unit amounts to. Surrogates are accepted in pairs only. -/
def closeUnit (raw : List Char) (lead? : Option Nat) (value : Nat) : Option Mode :=
  match lead? with
  | some lead =>
    if 0xDC00 ≤ value ∧ value ≤ 0xDFFF then
      some (.text (Char.ofNat (0x10000 + (lead - 0xD800) * 1024 + (value - 0xDC00)) :: raw))
    else none
  | none =>
    if 0xD800 ≤ value ∧ value ≤ 0xDBFF then some (.lead raw value false)
    else if 0xDC00 ≤ value ∧ value ≤ 0xDFFF then none
    else some (.text (Char.ofNat value :: raw))

def gapStep (c : Char) : Option (List Token × Mode) :=
  if isGap c then some ([], .between)
  else if c = '\x22' then some ([], .text [])
  else if isWordChar c then some ([], .word [c])
  else (separator? c).map fun token => ([token], .between)

def lexStep (mode : Mode) (c : Char) : Option (List Token × Mode) :=
  match mode with
  | .between => gapStep c
  | .word raw =>
    if isWordChar c then some ([], .word (c :: raw))
    else (gapStep c).map fun (tokens, next) => (.word raw.reverse :: tokens, next)
  | .text raw =>
    if c = '\x22' then some ([.text (String.ofList raw.reverse)], .between)
    else if c = '\\' then some ([], .escape raw)
    else if c.toNat < 32 then none
    else some ([], .text (c :: raw))
  | .escape raw =>
    if c = 'u' then some ([], .unit raw none 0 0)
    else (escaped? c).map fun value => ([], .text (value :: raw))
  | .unit raw lead? value count => do
    let digit ← hexValue? c
    if count < 3 then some ([], .unit raw lead? (value * 16 + digit) (count + 1))
    else ([], ·) <$> closeUnit raw lead? (value * 16 + digit)
  | .lead raw lead backslash =>
    if backslash then
      if c = 'u' then some ([], .unit raw (some lead) 0 0) else none
    else if c = '\\' then some ([], .lead raw lead true)
    else none

def tokensFrom (mode : Mode) : List Char → Option (List Token)
  | [] =>
    match mode with
    | .between => some []
    | .word raw => some [.word raw.reverse]
    | _ => none
  | c :: cs => do
    let (tokens, next) ← lexStep mode c
    return tokens ++ (← tokensFrom next cs)

def tokens (text : String) : Option (List Token) :=
  tokensFrom .between text.toList

end Json
end Data
end XmlShape
