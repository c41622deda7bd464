import XmlShape.Markup.Fault
import XmlShape.Text.Blank

/-!
# Tokens

A document is cut into tokens one character at a time. The machine that cuts it has a mode for
each kind of markup; reading a text in two parts is reading the first part and going on from the
mode it ends in.
-/

namespace XmlShape
namespace Markup

open Text

inductive Token where
  /-- Character data, with its references and its white space. -/
  | text (raw : List Char)
  | cdata (raw : List Char)
  /-- A comment, processing instruction, XML declaration or document type. -/
  | ignored
  | startTag (content : List Char)
  | emptyTag (content : List Char)
  | endTag (name : List Char)
deriving DecidableEq, Repr

/-- A token, or the fault that ends the reading, with the offset at which an error is reported:
the end of a text, the `<` of markup. -/
inductive Item where
  | token (offset : Nat) (token : Token)
  | fault (offset : Nat) (fault : Fault)
deriving DecidableEq, Repr

/-! # Complete pieces -/

/-- The name in an end tag: spaces at its end are dropped, unless there is nothing else. -/
def endName (name : List Char) : List Char :=
  if name.all isSpace then name else trimEnd isSpace name

def tagToken (content : List Char) : Token :=
  match content with
  | '/' :: name => .endTag (endName name)
  | _ =>
    if content.getLast? = some '/' then .emptyTag content.dropLast
    else .startTag content

/-- Whether `text` begins with `word`, whatever the case of ASCII letters. -/
def beginsWith (word text : List Char) : Bool :=
  (text.take word.length).map Char.toUpper == word

def closeComment (start : Nat) (content : List Char) : Item :=
  if beginsWith ['!', '-', '-'] content then .token start .ignored
  else .fault start (.unfinished .comment)

def closeCData (start : Nat) (content : List Char) : Item :=
  if ['!', '[', 'C', 'D', 'A', 'T', 'A', '['].isPrefixOf content then
    .token start (.cdata ((content.drop 8).take (content.length - 10)))
  else .fault start (.unfinished .cdata)

/-- A document type must be named; if it is not, the fault is put at its `>`. -/
def closeDoctype (start stop : Nat) (content : List Char) : Item :=
  if beginsWith ['!', 'D', 'O', 'C', 'T', 'Y', 'P', 'E'] content then
    if (content.drop 8).all isSpace then .fault stop (.illFormed .missingDoctypeName)
    else .token start .ignored
  else .fault start (.unfinished .doctype)

/-! # The machine -/

/-- What the machine is reading. Markup carries the offset of its `<` and what has been read since
then, newest first. -/
inductive Mode where
  | text (raw : List Char)
  | opened (start : Nat)
  /-- A tag; `quote?` is the quote that has been opened in it. -/
  | tag (start : Nat) (quote? : Option Char) (raw : List Char)
  | instruction (start : Nat) (raw : List Char)
  | declaration (start : Nat)
  | comment (start : Nat) (raw : List Char)
  | cdata (start : Nat) (raw : List Char)
  /-- A document type with `nested` unclosed `<` in it. -/
  | doctype (start : Nat) (nested : Nat) (raw : List Char)
  | stopped
deriving DecidableEq, Repr

def tagStep (start : Nat) (quote? : Option Char) (raw : List Char) (c : Char) :
    List Item × Mode :=
  match quote? with
  | none =>
    if c = '>' then ([.token start (tagToken raw.reverse)], .text [])
    else if c = '\x22' ∨ c = '\x27' then ([], .tag start (some c) (c :: raw))
    else ([], .tag start none (c :: raw))
  | some quote =>
    if c = quote then ([], .tag start none (c :: raw))
    else ([], .tag start (some quote) (c :: raw))

def finishWith (item : Item) : List Item × Mode :=
  match item with
  | .token .. => ([item], .text [])
  | .fault .. => ([item], .stopped)

def step (offset : Nat) (mode : Mode) (c : Char) : List Item × Mode :=
  match mode with
  | .text raw =>
    if c = '<' then ([.token offset (.text raw.reverse)], .opened offset)
    else ([], .text (c :: raw))
  | .opened start =>
    if c = '!' then ([], .declaration start)
    else if c = '?' then ([], .instruction start [c])
    else tagStep start none [] c
  | .tag start quote? raw => tagStep start quote? raw c
  | .instruction start raw =>
    if c = '>' ∧ raw.head? = some '?' then
      if raw.length = 1 then ([.fault start (.unfinished .instruction)], .stopped)
      else ([.token start .ignored], .text [])
    else ([], .instruction start (c :: raw))
  | .declaration start =>
    if c = '[' then ([], .cdata start [c, '!'])
    else if c = '-' then ([], .comment start [c, '!'])
    else if c = 'D' ∨ c = 'd' then ([], .doctype start 0 [c, '!'])
    else ([.fault start (.unfinished .declaration)], .stopped)
  | .comment start raw =>
    if c = '>' ∧ 4 < raw.length ∧ raw.take 2 = ['-', '-'] then
      finishWith (closeComment start raw.reverse)
    else ([], .comment start (c :: raw))
  | .cdata start raw =>
    if c = '>' ∧ raw.take 2 = [']', ']'] then finishWith (closeCData start raw.reverse)
    else ([], .cdata start (c :: raw))
  | .doctype start nested raw =>
    if c = '>' then
      match nested with
      | 0 => finishWith (closeDoctype start offset raw.reverse)
      | n + 1 => ([], .doctype start n (c :: raw))
    else ([], .doctype start (if c = '<' then nested + 1 else nested) (c :: raw))
  | .stopped => ([], .stopped)

def Mode.finish (offset : Nat) : Mode → List Item
  | .text raw => [.token offset (.text raw.reverse)]
  | .opened start => [.fault start (.unfinished .tag)]
  | .tag start .. => [.fault start (.unfinished .tag)]
  | .instruction start _ => [.fault start (.unfinished .instruction)]
  | .declaration start => [.fault start (.unfinished .declaration)]
  | .comment start _ => [.fault start (.unfinished .comment)]
  | .cdata start _ => [.fault start (.unfinished .cdata)]
  | .doctype start .. => [.fault start (.unfinished .doctype)]
  | .stopped => []

def itemsFrom (offset : Nat) (mode : Mode) : List Char → List Item
  | [] => mode.finish offset
  | c :: cs =>
    let (items, next) := step offset mode c
    items ++ itemsFrom (offset + c.utf8Size) next cs

def items (document : List Char) : List Item :=
  match document with
  | '\uFEFF' :: rest => itemsFrom 0 (.text []) rest
  | _ => itemsFrom 0 (.text []) document

end Markup
end XmlShape
