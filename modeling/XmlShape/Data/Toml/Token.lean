/-!
# Tokens of TOML

A text is cut into texts in quotes, words and signs. A word may be a part of a key, several parts
with points between them, or a value that is not a text; a date and a time after it are one word.
-/

namespace XmlShape
namespace Data
namespace Toml

inductive Token where
  | word (cs : List Char)
  /-- A text in quotes, which may stand for a key if it is on one line. -/
  | text (lines : Bool) (s : String)
  | bracket
  | endBracket
  | brace
  | endBrace
  | comma
  | equals
  | blank
  | newLine
deriving DecidableEq, Repr

/-! # Characters -/

def isBlank (c : Char) : Bool :=
  c == ' ' || c == '\t'

def isVisible (c : Char) : Bool :=
  c == '\t' || (0x20 ≤ c.toNat && c.toNat != 0x7F)

def isWordChar (c : Char) : Bool :=
  c.isAlphanum || ['_', '-', '+', ':', '.'].contains c

def sign? (c : Char) : Option Token :=
  match c with
  | '[' => some .bracket
  | ']' => some .endBracket
  | '{' => some .brace
  | '}' => some .endBrace
  | ',' => some .comma
  | '=' => some .equals
  | '\n' => some .newLine
  | _ => none

def isQuote (c : Char) : Bool :=
  c == '\x22' || c == '\x27'

def escaped? (c : Char) : Option Char :=
  match c with
  | 'b' => some '\x08'
  | 't' => some '\t'
  | 'n' => some '\n'
  | 'f' => some '\x0c'
  | 'r' => some '\r'
  | '\x22' => some '\x22'
  | '\\' => some '\\'
  | _ => none

def hexDigit? (c : Char) : Option Nat :=
  if '0' ≤ c ∧ c ≤ '9' then some (c.toNat - 48)
  else if 'a' ≤ c ∧ c ≤ 'f' then some (c.toNat - 87)
  else if 'A' ≤ c ∧ c ≤ 'F' then some (c.toNat - 55)
  else none

def isDateShape (raw : List Char) : Bool :=
  match raw with
  | [d2, d1, '-', m2, m1, '-', y4, y3, y2, y1] =>
    [d2, d1, m2, m1, y4, y3, y2, y1].all (·.isDigit)
  | _ => false

/-! # The machine -/

inductive Mode where
  | between
  | blank
  /-- After a carriage return, where the line must end. -/
  | lineEnd
  | comment
  | word (raw : List Char)
  /-- After a space that follows a date. -/
  | dateGap (raw : List Char)
  /-- After one or two quotes that begin a text, or are an empty one. -/
  | opening (quote : Char) (two : Bool)
  /-- At the start of a text of several lines, of which a first line break is no part. -/
  | firstLine (quote : Char) (returned : Bool)
  | text (quote : Char) (raw : List Char)
  /-- In a text of several lines, after `run` quotes. -/
  | lines (quote : Char) (raw : List Char) (run : Nat)
  /-- In a text of several lines after a carriage return. -/
  | linesEnd (quote : Char) (raw : List Char)
  | escape (several : Bool) (raw : List Char)
  /-- Before the last `more + 1` digits of a code point. -/
  | code (several : Bool) (raw : List Char) (more value : Nat)
  /-- After a backslash and blanks, where the line must end. -/
  | escapedBlank (raw : List Char)
  /-- After an escaped line break, where white space is passed over. -/
  | trim (raw : List Char) (returned : Bool)

abbrev Progress := List Token × Mode

def closed (several : Bool) (raw : List Char) : Token :=
  .text several (String.ofList raw.reverse)

def inText (several : Bool) (raw : List Char) : Mode :=
  if several then .lines '\x22' raw 0 else .text '\x22' raw

def betweenStep (c : Char) : Option Progress :=
  if isBlank c then some ([], .blank)
  else if c = '\r' then some ([], .lineEnd)
  else if c = '#' then some ([], .comment)
  else if isQuote c then some ([], .opening c false)
  else if isWordChar c then some ([], .word [c])
  else (sign? c).map fun t => ([t], .between)

def after (t : Token) (c : Char) : Option Progress :=
  (betweenStep c).map fun (ts, mode) => (ts ++ [t], mode)

def linesStep (quote : Char) (raw : List Char) (c : Char) : Option Progress :=
  if quote = '\x22' ∧ c = '\\' then some ([], .escape true raw)
  else if c = '\r' then some ([], .linesEnd quote raw)
  else if c = '\n' ∨ isVisible c then some ([], .lines quote (c :: raw) 0)
  else none

/-- A character after `run` quotes in a text of several lines. Three quotes end it; up to two more
that follow at once belong to it and stand before them. -/
def quotesStep (quote : Char) (raw : List Char) (run : Nat) (c : Char) : Option Progress :=
  if c = quote then
    if run = 4 then some ([closed true (quote :: quote :: raw)], .between)
    else some ([], .lines quote raw (run + 1))
  else if 3 ≤ run then after (closed true (List.replicate (run - 3) quote ++ raw)) c
  else linesStep quote (List.replicate run quote ++ raw) c

def escapeStep (several : Bool) (raw : List Char) (c : Char) : Option Progress :=
  match escaped? c with
  | some value => some ([], inText several (value :: raw))
  | none =>
    if c = 'u' then some ([], .code several raw 3 0)
    else if c = 'U' then some ([], .code several raw 7 0)
    else if !several then none
    else if isBlank c then some ([], .escapedBlank raw)
    else if c = '\n' then some ([], .trim raw false)
    else if c = '\r' then some ([], .trim raw true)
    else none

def step (mode : Mode) (c : Char) : Option Progress :=
  match mode with
  | .between => betweenStep c
  | .blank => if isBlank c then some ([], .blank) else after .blank c
  | .lineEnd => if c = '\n' then some ([.newLine], .between) else none
  | .comment =>
    if c = '\n' ∨ c = '\r' then betweenStep c
    else if isVisible c then some ([], .comment)
    else none
  | .word raw =>
    if isWordChar c then some ([], .word (c :: raw))
    else if c = ' ' ∧ isDateShape raw then some ([], .dateGap raw)
    else after (.word raw.reverse) c
  | .dateGap raw =>
    if c.isDigit then some ([], .word (c :: ' ' :: raw))
    else (after .blank c).map fun (ts, mode) => (ts ++ [.word raw.reverse], mode)
  | .opening quote two =>
    if two then
      if c = quote then some ([], .firstLine quote false) else after (.text false "") c
    else if c = quote then some ([], .opening quote true)
    else if quote = '\x22' ∧ c = '\\' then some ([], .escape false [])
    else if isVisible c then some ([], .text quote [c])
    else none
  | .firstLine quote returned =>
    if c = '\n' then some ([], .lines quote [] 0)
    else if returned then none
    else if c = '\r' then some ([], .firstLine quote true)
    else quotesStep quote [] 0 c
  | .text quote raw =>
    if c = quote then some ([closed false raw], .between)
    else if quote = '\x22' ∧ c = '\\' then some ([], .escape false raw)
    else if isVisible c then some ([], .text quote (c :: raw))
    else none
  | .lines quote raw run => quotesStep quote raw run c
  | .linesEnd quote raw => if c = '\n' then some ([], .lines quote (c :: raw) 0) else none
  | .escape several raw => escapeStep several raw c
  | .code several raw more value => do
    let value := value * 16 + (← hexDigit? c)
    match more with
    | more + 1 => some ([], .code several raw more value)
    | 0 =>
      if value.isValidChar then some ([], inText several (Char.ofNat value :: raw)) else none
  | .escapedBlank raw =>
    if isBlank c then some ([], .escapedBlank raw)
    else if c = '\n' then some ([], .trim raw false)
    else if c = '\r' then some ([], .trim raw true)
    else none
  | .trim raw returned =>
    if c = '\n' then some ([], .trim raw false)
    else if returned then none
    else if c = '\r' then some ([], .trim raw true)
    else if isBlank c then some ([], .trim raw false)
    else quotesStep '\x22' raw 0 c

def finish (mode : Mode) : Option (List Token) :=
  match mode with
  | .between | .comment => some []
  | .blank => some [.blank]
  | .word raw => some [.word raw.reverse]
  | .dateGap raw => some [.word raw.reverse, .blank]
  | .opening _ true => some [.text false ""]
  | .lines quote raw run =>
    if 3 ≤ run then some [closed true (List.replicate (run - 3) quote ++ raw)] else none
  | _ => none

def tokensFrom (mode : Mode) : List Char → Option (List Token)
  | [] => finish mode
  | c :: cs => do
    let (ts, next) ← step mode c
    return ts.reverse ++ (← tokensFrom next cs)

/-- The tokens of a text. A byte order mark before it is passed over. -/
def tokens? (text : String) : Option (List Token) :=
  match text.toList with
  | '\uFEFF' :: cs => tokensFrom .between cs
  | cs => tokensFrom .between cs

end Toml
end Data
end XmlShape
