import XmlShape.Data.Yaml.Scalar
import XmlShape.Text.Utf8

/-!
# Tokens of YAML

A text is cut into scalars, indicators and properties. The beginnings and ends of block collections
follow from the columns at which their items stand, and are tokens of their own; so are the
names of a mapping, which are known for names only when the colon after them is reached.
-/

namespace XmlShape
namespace Data
namespace Yaml

inductive Style where
  | plain
  | quoted
  | literal
  | folded
deriving DecidableEq, Repr

inductive Token where
  | version (major minor : Nat)
  | tagHandle (handle expansion : String)
  | beginDocument
  | endDocument
  | beginBlockList
  | beginBlockMap
  | endBlock
  | beginList
  | endList
  | beginMap
  | endMap
  | item
  | comma
  | key
  | value
  | alias (name : String)
  | anchor (name : String)
  | tag (handle suffix : String)
  | scalar (style : Style) (text : String)
deriving DecidableEq, Repr

/-! # Properties -/

def textOf (ms : List Mark) : String :=
  String.ofList (ms.map (·.char))

def takeName (ms : List Mark) : String × List Mark :=
  (textOf (ms.takeWhile (isNameChar ·.char)), ms.dropWhile (isNameChar ·.char))

def anchorName? (ms : List Mark) : Option (String × List Mark) :=
  let (name, rest) := takeName ms
  let ends :=
    endsHere rest || rest.head?.any fun m =>
      ['?', ':', ',', ']', '}', '%', '@', '\x60'].contains m.char
  if !name.isEmpty && ends then some (name, rest) else none

def isTagChar (verbatim : Bool) (c : Char) : Bool :=
  isNameChar c || ";/?:@&=+$.!~*'()%".toList.contains c || (verbatim && ",[]".toList.contains c)

def tagBytes? : List Char → Option (List UInt8)
  | [] => some []
  | '%' :: a :: b :: cs => do
    let byte := (← digit? 16 a) * 16 + (← digit? 16 b)
    return UInt8.ofNat byte :: (← tagBytes? cs)
  | '%' :: _ => none
  | c :: cs => (UInt8.ofNat c.toNat :: ·) <$> tagBytes? cs

/-- A part of a tag that follows `head`, and what follows it. It is not empty unless `head` has
already begun it. -/
def tagPart? (verbatim : Bool) (head : String) (ms : List Mark) : Option (String × List Mark) := do
  let raw := (ms.takeWhile (isTagChar verbatim ·.char)).map (·.char)
  let text ← (Text.Utf8.decode (← tagBytes? raw)).toOption
  if raw.isEmpty && head.isEmpty then none
  else some ((head.drop 1).toString ++ text, ms.dropWhile (isTagChar verbatim ·.char))

/-- The handle of a tag: an exclamation mark, or a name between two of them. A tag that has no
handle of its own gives what begins it. -/
def takeHandle (ms : List Mark) : String × List Mark :=
  let (name, rest) := takeName ms
  match rest with
  | ⟨'!', _, _⟩ :: rest => ("!" ++ name ++ "!", rest)
  | _ => ("!" ++ name, rest)

def tag? (brackets : Bool) (ms : List Mark) : Option (Token × List Mark) := do
  let (token, rest) ←
    match ms with
    | ⟨'<', _, _⟩ :: ms => do
      let (suffix, rest) ← tagPart? true "" ms
      match rest with
      | ⟨'>', _, _⟩ :: rest => some (Token.tag "" suffix, rest)
      | _ => none
    | _ => do
      let (handle, rest) := takeHandle ms
      if 1 < handle.length && handle.endsWith "!" then
        let (suffix, rest) ← tagPart? false "" rest
        some (Token.tag handle suffix, rest)
      else
        let (suffix, rest) ← tagPart? false handle rest
        some (if suffix.isEmpty then .tag "" "!" else .tag "!" suffix, rest)
  let ends := endsHere rest || (brackets && rest.head?.any (·.char = ','))
  if ends then some (token, rest) else none

/-! # Directives -/

def takeNumber? (ms : List Mark) : Option (Nat × List Mark) := do
  let digits := (ms.takeWhile (·.char.isDigit)).map (·.char)
  let n ← digits? 10 digits
  if digits.length ≤ 9 then some (n, ms.dropWhile (·.char.isDigit)) else none

def skipBlanks (ms : List Mark) : List Mark :=
  ms.dropWhile (isBlank ·.char)

def versionDirective? (ms : List Mark) : Option (Token × List Mark) := do
  let (major, ms) ← takeNumber? (skipBlanks ms)
  match ms with
  | ⟨'.', _, _⟩ :: ms =>
    let (minor, ms) ← takeNumber? ms
    some (.version major minor, ms)
  | _ => none

def handleDirective? (ms : List Mark) : Option (Token × List Mark) := do
  match skipBlanks ms with
  | ⟨'!', _, _⟩ :: ms =>
    let (handle, rest) := takeHandle ms
    let complete := handle = "!" || (1 < handle.length && handle.endsWith "!")
    if complete && rest.head?.any (isBlank ·.char) then
      let (expansion, rest) ← tagPart? true "" (skipBlanks rest)
      if endsHere rest then some (.tagHandle handle expansion, rest) else none
    else none
  | _ => none

def directive? (ms : List Mark) : Option (Token × List Mark) := do
  let (name, rest) := takeName ms
  let (token, rest) ←
    match name with
    | "YAML" => if endsHere rest then versionDirective? rest else none
    | "TAG" => if endsHere rest then handleDirective? rest else none
    | _ => none
  some (token, ← nextLine? rest)

/-! # Layout -/

structure KeyPlace where
  /-- How many tokens come before it. -/
  before : Nat
  line : Nat
  column : Nat
  /-- Whether nothing but a key can stand there. -/
  required : Bool

structure Layout where
  tokens : List Token := []
  /-- The columns of the open block collections, the innermost first. -/
  indents : List Nat := []
  /-- The place of a key in the innermost brackets. -/
  key? : Option KeyPlace := none
  /-- The places of keys in the brackets around. -/
  outer : List (Option KeyPlace) := []
  keyAllowed : Bool := true

namespace Layout

def brackets (l : Layout) : Bool :=
  !l.outer.isEmpty

def margin (l : Layout) : Nat :=
  match l.indents with
  | [] => 0
  | column :: _ => column + 1

def emit (l : Layout) (t : Token) : Layout :=
  { l with tokens := t :: l.tokens }

def emitAt (l : Layout) (before : Nat) (t : Token) : Layout :=
  { l with tokens := l.tokens.insertIdx (l.tokens.length - before) t }

def allowKey (l : Layout) (allowed : Bool) : Layout :=
  { l with keyAllowed := allowed }

/-! ## Keys -/

def dropKey? (l : Layout) : Option Layout :=
  if l.key?.any (·.required) then none else some { l with key? := none }

def noteKey? (l : Layout) (m : Mark) : Option Layout :=
  if l.keyAllowed then do
    let l ← l.dropKey?
    let required := !l.brackets && l.indents.head? = some m.column
    some { l with
      key? := some { before := l.tokens.length, line := m.line, column := m.column, required } }
  else some l

/-- Whether the colon after a key that began at a place would stand too far from it: on another
line, or more than 1024 characters on. -/
def isStale (m : Mark) (place? : Option KeyPlace) : Bool :=
  place?.any fun p => p.line < m.line || p.column + 1024 < m.column

def dropStale? (l : Layout) (m : Mark) : Option Layout :=
  let fresh (place? : Option KeyPlace) := if isStale m place? then none else place?
  if (l.key? :: l.outer).any fun place? => isStale m place? && place?.any (·.required) then none
  else some { l with key? := fresh l.key?, outer := l.outer.map fresh }

/-! ## Block collections -/

def openBlock (l : Layout) (column before : Nat) (t : Token) : Layout :=
  if l.brackets || column < l.margin then l
  else { l.emitAt before t with indents := column :: l.indents }

def closeBlocks (l : Layout) (column : Nat) : Layout :=
  if l.brackets then l
  else
    let closed := l.indents.takeWhile (column < ·)
    { l with
      indents := l.indents.dropWhile (column < ·)
      tokens := closed.map (fun _ => .endBlock) ++ l.tokens }

def closeAllBlocks (l : Layout) : Layout :=
  if l.brackets then l
  else { l with indents := [], tokens := l.indents.map (fun _ => .endBlock) ++ l.tokens }

/-! ## Indicators -/

def addBoundary? (l : Layout) (t : Token) : Option Layout := do
  let l ← l.closeAllBlocks.dropKey?
  some ((l.allowKey false).emit t)

def addOpening? (l : Layout) (m : Mark) (t : Token) : Option Layout := do
  let l ← l.noteKey? m
  some ({ l with outer := l.key? :: l.outer, key? := none, keyAllowed := true }.emit t)

def addClosing? (l : Layout) (t : Token) : Option Layout := do
  let l ← l.dropKey?
  let l :=
    match l.outer with
    | [] => l
    | key? :: outer => { l with key?, outer }
  some ((l.allowKey false).emit t)

def addComma? (l : Layout) : Option Layout := do
  let l ← l.dropKey?
  some ((l.allowKey true).emit .comma)

def addItem? (l : Layout) (m : Mark) : Option Layout := do
  if !l.brackets && !l.keyAllowed then none
  else
    let l ← (l.openBlock m.column l.tokens.length .beginBlockList).dropKey?
    some ((l.allowKey true).emit .item)

def addKey? (l : Layout) (m : Mark) : Option Layout := do
  if !l.brackets && !l.keyAllowed then none
  else
    let l ← (l.openBlock m.column l.tokens.length .beginBlockMap).dropKey?
    some ((l.allowKey (!l.brackets)).emit .key)

def addValue? (l : Layout) (m : Mark) : Option Layout :=
  match l.key? with
  | some p =>
    let l := (l.emitAt p.before .key).openBlock p.column p.before .beginBlockMap
    some ({ l with key? := none, keyAllowed := false }.emit .value)
  | none =>
    if !l.brackets && !l.keyAllowed then none
    else
      let l := l.openBlock m.column l.tokens.length .beginBlockMap
      some ((l.allowKey (!l.brackets)).emit .value)

def addContent? (l : Layout) (m : Mark) (t : Token) : Option Layout := do
  let l ← l.noteKey? m
  some ((l.allowKey false).emit t)

end Layout

/-! # Cutting -/

/-- The marks of the next token, after gaps and comments, and whether a key may begin there. A line
break allows keys outside brackets; where they are allowed, lines are not indented with tabs. -/
def skipGaps (brackets keyAllowed comment : Bool) : List Mark → Bool × List Mark
  | [] => (keyAllowed, [])
  | m :: ms =>
    if isBreak m.char then skipGaps brackets (keyAllowed || !brackets) false ms
    else if comment || m.char = ' ' || (m.char = '\t' && (brackets || !keyAllowed)) then
      skipGaps brackets keyAllowed comment ms
    else if m.char = '#' then skipGaps brackets keyAllowed true ms
    else (keyAllowed, m :: ms)

def beginsPlain (brackets : Bool) (c : Char) (ms : List Mark) : Bool :=
  if c = '-' then !ms.head?.any (isBlank ·.char)
  else if c = '?' ∨ c = ':' then !brackets && !endsHere ms
  else !isGap c && !",[]{}#&*!|>'\"%@\x60".toList.contains c

def Layout.addScalar? (l : Layout) (m : Mark) (style : Style) (taken? : Option Taken) :
    Option (Layout × List Mark) := do
  let taken ← taken?
  let l ← l.addContent? m (.scalar style taken.text)
  some (l.allowKey taken.broken, taken.rest)

def Layout.addBlock? (l : Layout) (style : Style) (ms : List Mark) :
    Option (Layout × List Mark) := do
  let l ← l.dropKey?
  let taken ← block? (style = .folded) l.margin ms
  some ((l.allowKey true).emit (.scalar style taken.text), taken.rest)

def cut? (l : Layout) (m : Mark) (ms : List Mark) : Option (Layout × List Mark) :=
  let before (rest : List Mark) (l? : Option Layout) := l?.map (·, rest)
  if m.column = 0 ∧ m.char = '%' then do
    let (token, rest) ← directive? ms
    before rest (l.addBoundary? token)
  else
    match documentMark? (m :: ms) with
    | some c =>
      before (ms.drop 2) (l.addBoundary? (if c = '-' then .beginDocument else .endDocument))
    | none =>
      match m.char with
      | '[' => before ms (l.addOpening? m .beginList)
      | '{' => before ms (l.addOpening? m .beginMap)
      | ']' => before ms (l.addClosing? .endList)
      | '}' => before ms (l.addClosing? .endMap)
      | ',' => before ms l.addComma?
      | '*' => do
        let (name, rest) ← anchorName? ms
        before rest (l.addContent? m (.alias name))
      | '&' => do
        let (name, rest) ← anchorName? ms
        before rest (l.addContent? m (.anchor name))
      | '!' => do
        let (token, rest) ← tag? l.brackets ms
        before rest (l.addContent? m token)
      | '\x27' => l.addScalar? m .quoted (quoted? '\x27' ms)
      | '\x22' => l.addScalar? m .quoted (quoted? '\x22' ms)
      | c =>
        if c = '-' ∧ endsHere ms then before ms (l.addItem? m)
        else if c = '?' ∧ (l.brackets ∨ endsHere ms) then before ms (l.addKey? m)
        else if c = ':' ∧ (l.brackets ∨ endsHere ms) then before ms (l.addValue? m)
        else if c = '|' ∧ !l.brackets then l.addBlock? .literal ms
        else if c = '>' ∧ !l.brackets then l.addBlock? .folded ms
        else if beginsPlain l.brackets c ms then
          l.addScalar? m .plain (plain? l.brackets l.margin (m :: ms))
        else none

def cutFrom (l : Layout) (ms : List Mark) : Option (List Token) :=
  let (keyAllowed, rest) := skipGaps l.brackets l.keyAllowed false ms
  match rest with
  | [] => (l.closeAllBlocks.dropKey?).map (·.tokens.reverse)
  | m :: rest => do
    let l ← (l.allowKey keyAllowed).dropStale? m
    let (l, after) ← cut? (l.closeBlocks m.column) m rest
    if after.length < ms.length then cutFrom l after else none
termination_by ms.length

def tokens? (text : String) : Option (List Token) :=
  marks? text >>= cutFrom {}

end Yaml
end Data
end XmlShape
