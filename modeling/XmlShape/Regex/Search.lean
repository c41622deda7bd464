import XmlShape.Regex.Pattern

/-!
# Searching

A pattern is tried at every position of a text from the left. Where it matches in several ways
they are listed in order of preference, and the first counts. Two ways that end at the same
position lead to the same continuations, so only the preferred one is kept.
-/

namespace XmlShape
namespace Regex

/-- A position in a text: the character before it and the text after it, with what the groups have
matched on the way, newest first. -/
structure Cursor where
  before : Option Char
  rest : List Char
  captures : List (Nat × List Char) := []
deriving DecidableEq, Repr

def distinct (cursors : List Cursor) : List Cursor :=
  cursors.foldl (fun kept t =>
    if kept.any fun u => u.rest.length == t.rest.length then kept else kept ++ [t]) []

def Cursor.capture (index : Nat) (start : List Char) (t : Cursor) : Cursor :=
  { t with captures := (index, start.take (start.length - t.rest.length)) :: t.captures }

/-! # Repetition -/

/-- Goes on with `f` from each cursor, passing on the positions that have been `seen`. -/
def through (f : List Nat → Cursor → List Cursor × List Nat) (seen : List Nat) :
    List Cursor → List Cursor × List Nat
  | [] => ([], seen)
  | t :: ts =>
    let (ends, seen) := f seen t
    let (more, seen) := through f seen ts
    (ends ++ more, seen)

/-- The ends of any number of further repetitions of `body`. A repetition must get ahead, and
no position is gone on from twice. -/
def further (body : Cursor → List Cursor) (greedy : Bool) :
    Nat → List Nat → Cursor → List Cursor × List Nat
  | 0, seen, s => ([s], seen)
  | fuel + 1, seen, s =>
    if seen.contains s.rest.length then ([], seen)
    else
      let ahead := (body s).filter fun t => t.rest.length < s.rest.length
      let (ends, seen) := through (further body greedy fuel) (s.rest.length :: seen) ahead
      (if greedy then ends ++ [s] else s :: ends, seen)

/-- The ends of at least one repetition of `body`. After a first repetition that matches nothing
there is no other. -/
def atLeastOnce (body : Cursor → List Cursor) (greedy : Bool) (s : Cursor) : List Cursor :=
  let next := fun seen (t : Cursor) =>
    if t.rest.length < s.rest.length then further body greedy (t.rest.length + 1) seen t
    else ([t], seen)
  distinct (through next [] (body s)).1

def optionally (more : Cursor → List Cursor) (greedy : Bool) (s : Cursor) : List Cursor :=
  distinct (if greedy then more s ++ [s] else s :: more s)

def atMost (body : Cursor → List Cursor) (greedy : Bool) : Nat → Cursor → List Cursor
  | 0, s => [s]
  | most + 1, s =>
    optionally (fun s => (body s).flatMap (atMost body greedy most)) greedy s

def exactly (body : Cursor → List Cursor) : Nat → Cursor → List Cursor
  | 0, s => [s]
  | times + 1, s => distinct ((body s).flatMap (exactly body times))

/-! # Matching -/

/-- The ends of the matches of a pattern that begin at a cursor, in order of preference. -/
def ends : Pattern → Cursor → List Cursor
  | .empty, s => [s]
  | .one set, s =>
    match s.rest with
    | c :: rest => if set.contains c then [{ s with before := some c, rest }] else []
    | [] => []
  | .assertion a, s => if a.holds s.before s.rest.head? then [s] else []
  | .seq p q, s => distinct ((ends p s).flatMap (ends q))
  | .either p q, s => distinct (ends p s ++ ends q s)
  | .repeated least most greedy p, s =>
    match most with
    | some most =>
      distinct ((exactly (ends p) least s).flatMap (atMost (ends p) greedy (most - least)))
    | none =>
      match least with
      | 0 => optionally (atLeastOnce (ends p) greedy) greedy s
      | least + 1 =>
        distinct ((exactly (ends p) least s).flatMap (atLeastOnce (ends p) greedy))
  | .group index p, s => (ends p s).map (Cursor.capture index s.rest)

structure Found where
  before : List Char
  matched : List Char
  after : List Char
  captures : List (Nat × List Char)
deriving DecidableEq, Repr

def findFrom (p : Pattern) (passed : List Char) : List Char → Option Found
  | [] =>
    match ends p ⟨passed.head?, [], []⟩ with
    | t :: _ => some ⟨passed.reverse, [], t.rest, t.captures⟩
    | [] => none
  | c :: cs =>
    match ends p ⟨passed.head?, c :: cs, []⟩ with
    | t :: _ =>
      some ⟨passed.reverse, (c :: cs).take ((c :: cs).length - t.rest.length), t.rest, t.captures⟩
    | [] => findFrom p (c :: passed) cs

def find? (p : Pattern) (text : List Char) : Option Found :=
  findFrom p [] text

end Regex
end XmlShape
