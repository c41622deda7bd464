import XmlShape.Data.Yaml.Mark
import XmlShape.Data.Yaml.Plain

/-!
# Scalars of YAML

A scalar is plain, in quotes, or a block of indented lines. Outside blocks the gaps between the
lines of a scalar are folded: one line break becomes a space, and of several the first is left
out.
-/

namespace XmlShape
namespace Data
namespace Yaml

/-! # Gaps -/

structure Gap where
  /-- Blanks before the first line break. -/
  blanks : List Char := []
  broken : Bool := false
  /-- The first line break, unless it is escaped. -/
  first : List Char := []
  more : List Char := []

namespace Gap

def isEmpty (g : Gap) : Bool :=
  !g.broken && g.blanks.isEmpty

def add (g : Gap) (c : Char) : Gap :=
  if isBreak c then
    if g.broken then { g with more := g.more ++ [c] } else { broken := true, first := [c] }
  else if g.broken then g
  else { g with blanks := g.blanks ++ [c] }

def folded (g : Gap) : List Char :=
  if !g.broken then g.blanks
  else if g.first = ['\n'] then
    if g.more.isEmpty then [' '] else g.more
  else g.first ++ g.more

end Gap

/-! # Plain scalars -/

structure Taken where
  text : String
  /-- Whether a line break has been passed after the scalar. -/
  broken : Bool := false
  rest : List Mark

def isBracketSign (c : Char) : Bool :=
  [',', '[', ']', '{', '}'].contains c

/-- Reads on in a plain scalar of which `raw`, newest first, and then `gap` have been read. Lines
after the first begin at column `margin` or further on, unless the scalar is in brackets. -/
def plainFrom (brackets : Bool) (margin : Nat) (gap : Gap) (raw : List Char) :
    List Mark → Option Taken
  | [] => some { text := String.ofList raw.reverse, broken := gap.broken, rest := [] }
  | m :: ms =>
    let taken : Taken :=
      { text := String.ofList raw.reverse, broken := gap.broken, rest := m :: ms }
    if isGap m.char then
      if gap.broken && m.column < margin && m.char = '\t' then none
      else plainFrom brackets margin (gap.add m.char) raw ms
    else if !gap.isEmpty && ((!brackets && m.column < margin) || m.char = '#' ||
        (documentMark? (m :: ms)).isSome) then
      some taken
    else if brackets && m.char = ':' && ms.head?.any (fun n => isBracketSign n.char || n.char = '?')
        then
      none
    else if (m.char = ':' && endsHere ms) || (brackets && isBracketSign m.char) then some taken
    else plainFrom brackets margin {} (m.char :: (gap.folded.reverse ++ raw)) ms

def plain? (brackets : Bool) (margin : Nat) (ms : List Mark) : Option Taken :=
  plainFrom brackets margin {} [] ms

/-! # Quoted scalars -/

def escaped? (c : Char) : Option Char :=
  match c with
  | '0' => some '\x00'
  | 'a' => some '\x07'
  | 'b' => some '\x08'
  | 't' => some '\t'
  | '\t' => some '\t'
  | 'n' => some '\n'
  | 'v' => some '\x0b'
  | 'f' => some '\x0c'
  | 'r' => some '\r'
  | 'e' => some '\x1b'
  | ' ' => some ' '
  | '\x22' => some '\x22'
  | '/' => some '/'
  | '\\' => some '\\'
  | 'N' => some '\u0085'
  | '_' => some '\u00A0'
  | 'L' => some '\u2028'
  | 'P' => some '\u2029'
  | _ => none

def escapeDigits? (c : Char) : Option Nat :=
  [('x', 2), ('u', 4), ('U', 8)].lookup c

def char? (code : Nat) : Option Char :=
  if code.isValidChar then some (Char.ofNat code) else none

inductive QuotedMode where
  | text
  | escape
  /-- Before the last `more + 1` digits of a code point. -/
  | code (more value : Nat)

def quotedFrom (quote : Char) (mode : QuotedMode) (gap : Gap) (raw : List Char) :
    List Mark → Option Taken
  | [] => none
  | m :: ms =>
    match mode with
    | .code more value => do
      let value := value * 16 + (← digit? 16 m.char)
      match more with
      | 0 => quotedFrom quote .text {} ((← char? value) :: raw) ms
      | more + 1 => quotedFrom quote (.code more value) {} raw ms
    | .escape =>
      if isBreak m.char then quotedFrom quote .text { broken := true } raw ms
      else
        match escaped? m.char, escapeDigits? m.char with
        | some c, _ => quotedFrom quote .text {} (c :: raw) ms
        | none, some (more + 1) => quotedFrom quote (.code more 0) {} raw ms
        | _, _ => none
    | .text =>
      if isGap m.char then quotedFrom quote .text (gap.add m.char) raw ms
      else if (documentMark? (m :: ms)).isSome then none
      else
        let raw := gap.folded.reverse ++ raw
        let taken : Taken := { text := String.ofList raw.reverse, rest := ms }
        if m.char = quote then
          match ms with
          | n :: ns =>
            if quote = '\x27' ∧ n.char = quote then quotedFrom quote .text {} (quote :: raw) ns
            else some taken
          | [] => some taken
        else if quote = '\x22' ∧ m.char = '\\' then quotedFrom quote .escape {} raw ms
        else quotedFrom quote .text {} (m.char :: raw) ms

def quoted? (quote : Char) (ms : List Mark) : Option Taken :=
  quotedFrom quote .text {} [] ms

/-! # Blocks -/

inductive Chomping where
  /-- The first is kept. -/
  | clip
  | strip
  | keep
deriving DecidableEq, Repr

structure BlockHeader where
  chomping : Chomping := .clip
  /-- By how much its lines are indented, if that is not left to its first one. -/
  indentation? : Option Nat := none

def headerFrom (h : BlockHeader) : List Mark → Option (BlockHeader × List Mark)
  | [] => some (h, [])
  | m :: ms =>
    if m.char = '+' ∨ m.char = '-' then
      if h.chomping = .clip then
        headerFrom { h with chomping := if m.char = '+' then .keep else .strip } ms
      else none
    else if m.char.isDigit then
      if h.indentation?.isNone ∧ m.char ≠ '0' then
        headerFrom { h with indentation? := digit? 10 m.char } ms
      else none
    else (nextLine? (m :: ms)).map (h, ·)

structure Block where
  /-- The column of its lines, once it is known. -/
  indent? : Option Nat
  /-- The widest empty line before it is known. -/
  widest : Nat := 0
  inLine : Bool := false
  lineBreak : List Char := []
  emptyLines : List Char := []
  blankFirst : Bool := false
  raw : List Char := []

namespace Block

/-- What stands between the last line and the next one. In a folded block lines are joined, except
those that begin with a blank. -/
def joint (b : Block) (folded blankNext : Bool) : List Char :=
  if folded && b.lineBreak = ['\n'] && !b.blankFirst && !blankNext then
    if b.emptyLines.isEmpty then [' '] else b.emptyLines
  else b.lineBreak ++ b.emptyLines

def text (b : Block) (chomping : Chomping) : String :=
  let lineBreak := if chomping = .strip then [] else b.lineBreak
  let emptyLines := if chomping = .keep then b.emptyLines else []
  String.ofList (b.raw.reverse ++ lineBreak ++ emptyLines)

end Block

def blockFrom (folded : Bool) (least : Nat) (b : Block) : List Mark → Option (Block × List Mark)
  | [] => some (b, [])
  | m :: ms =>
    if b.inLine then
      if isBreak m.char then
        blockFrom folded least { b with inLine := false, lineBreak := [m.char] } ms
      else blockFrom folded least { b with raw := m.char :: b.raw } ms
    else
      let inMargin := b.indent?.all (m.column < ·)
      if inMargin && m.char = ' ' then blockFrom folded least b ms
      else if inMargin && m.char = '\t' then none
      else if isBreak m.char then
        blockFrom folded least
          { b with widest := max b.widest m.column, emptyLines := b.emptyLines ++ [m.char] } ms
      else
        let indent := b.indent?.getD (max (max b.widest m.column) least)
        if m.column = indent then
          let blank := isBlank m.char
          blockFrom folded least
            { indent? := some indent
              inLine := true
              blankFirst := blank
              raw := m.char :: ((b.joint folded blank).reverse ++ b.raw) } ms
        else some (b, m :: ms)

def block? (folded : Bool) (margin : Nat) (ms : List Mark) : Option Taken := do
  let (header, ms) ← headerFrom {} ms
  let indent? := header.indentation?.map (margin - 1 + ·)
  let (b, rest) ← blockFrom folded (max margin 1) { indent? } ms
  return { text := b.text header.chomping, rest }

end Yaml
end Data
end XmlShape
