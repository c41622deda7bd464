import XmlShape.Regex.CharClass

/-!
# Patterns

A pattern describes texts. It is built from sets of characters and from assertions about a position
by concatenation, choice and repetition; numbered groups remember what they matched.
-/

namespace XmlShape
namespace Regex

/-! # Sets of characters -/

inductive CharSet where
  | none
  | range (low high : Char)
  /-- The characters that differ from one of a range in case only. -/
  | folded (low high : Char)
  | digit
  | word
  | blank
  | complement (s : CharSet)
  | union (s t : CharSet)
  | intersection (s t : CharSet)
deriving DecidableEq, Repr

namespace CharSet

def contains : CharSet → Char → Bool
  | none, _ => false
  | range low high, c => low ≤ c && c ≤ high
  | folded low high, c =>
    (caseVariants c.toNat).any fun code => low.toNat ≤ code && code ≤ high.toNat
  | digit, c => isDigit c
  | word, c => isWord c
  | blank, c => Text.isBlank c
  | complement s, c => !s.contains c
  | union s t, c => s.contains c || t.contains c
  | intersection s t, c => s.contains c && t.contains c

def single (c : Char) : CharSet :=
  range c c

def difference (s t : CharSet) : CharSet :=
  intersection s (complement t)

def symmetricDifference (s t : CharSet) : CharSet :=
  union (difference s t) (difference t s)

def ofList (cs : List Char) : CharSet :=
  cs.foldl (fun s c => union s (single c)) none

end CharSet

/-! # Assertions -/

inductive Assertion where
  | textStart
  | textEnd
  | lineStart (carriageReturns : Bool)
  | lineEnd (carriageReturns : Bool)
  | boundary
  | noBoundary
  | wordStart
  | wordEnd
  /-- No word character comes before. -/
  | wordStartHalf
  /-- No word character comes after. -/
  | wordEndHalf
deriving DecidableEq, Repr

def wordAt (c? : Option Char) : Bool :=
  c?.any isWord

def Assertion.holds (before after : Option Char) : Assertion → Bool
  | textStart => before.isNone
  | textEnd => after.isNone
  | lineStart false => before.all (· == '\n')
  | lineEnd false => after.all (· == '\n')
  | lineStart true =>
    before.all fun c => c == '\n' || (c == '\r' && after != some '\n')
  | lineEnd true =>
    after.all fun c => c == '\r' || (c == '\n' && before != some '\r')
  | boundary => wordAt before != wordAt after
  | noBoundary => wordAt before == wordAt after
  | wordStart => !wordAt before && wordAt after
  | wordEnd => wordAt before && !wordAt after
  | wordStartHalf => !wordAt before
  | wordEndHalf => !wordAt after

/-! # Patterns -/

inductive Pattern where
  | empty
  | one (set : CharSet)
  | assertion (a : Assertion)
  | seq (p q : Pattern)
  /-- Either of two patterns, the first being preferred. -/
  | either (p q : Pattern)
  /-- At least `least` and at most `most` times, if there is a limit. A greedy repetition prefers
  to go on, another to end. -/
  | repeated (least : Nat) (most : Option Nat) (greedy : Bool) (p : Pattern)
  | group (index : Nat) (p : Pattern)
deriving DecidableEq, Repr

def sequence : List Pattern → Pattern
  | [] => .empty
  | [p] => p
  | p :: ps => .seq p (sequence ps)

def literal (text : List Char) : List Pattern :=
  text.map fun c => .one (.single c)

structure Expression where
  pattern : Pattern
  names : List (String × Nat) := []
deriving DecidableEq, Repr

/-- How the text of a pattern is read, if it is one. -/
abbrev Reader :=
  String → Option Expression

end Regex
end XmlShape
