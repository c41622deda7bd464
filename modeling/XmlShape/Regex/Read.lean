import XmlShape.Regex.Pattern

/-!
# Reading patterns

The text of a pattern is read from left to right. Open groups are kept on a path, innermost first,
each with the part of its surroundings that has been read; sets of characters in brackets are
read in the same way. A text that is no pattern has no reading.

Sets that are named by a property of characters, such as `\p{Greek}`, and patterns for bytes
instead of characters are not read, and there is no limit on the size of a pattern. What reads
patterns is a parameter of everything that is built on it.
-/

namespace XmlShape
namespace Regex

/-! # Flags -/

structure Flags where
  ignoreCase : Bool := false
  multiLine : Bool := false
  /-- The dot matches line feeds too. -/
  dotAll : Bool := false
  /-- Greedy and reluctant repetitions change places. -/
  swapGreed : Bool := false
  /-- Blanks and comments are passed over. -/
  verbose : Bool := false
  carriageReturns : Bool := false
deriving DecidableEq, Repr

def Flags.set? (flags : Flags) (value : Bool) (letter : Char) : Option Flags :=
  match letter with
  | 'i' => some { flags with ignoreCase := value }
  | 'm' => some { flags with multiLine := value }
  | 's' => some { flags with dotAll := value }
  | 'U' => some { flags with swapGreed := value }
  | 'x' => some { flags with verbose := value }
  | 'R' => some { flags with carriageReturns := value }
  | 'u' => if value then some flags else none
  | _ => none

def skipBlanks : Bool → List Char → List Char
  | _, [] => []
  | false, c :: cs =>
    if Text.isBlank c then skipBlanks false cs
    else if c = '#' then skipBlanks true cs
    else c :: cs
  | true, c :: cs => if c = '\n' then skipBlanks false cs else skipBlanks true cs

def Flags.skip (flags : Flags) (cs : List Char) : List Char :=
  if flags.verbose then skipBlanks false cs else cs

def Flags.range (flags : Flags) (low high : Char) : CharSet :=
  if flags.ignoreCase then .folded low high else .range low high

/-! # Escapes -/

inductive Primitive where
  | literal (c : Char)
  | set (s : CharSet)
  | assertion (a : Assertion)

def hexValue? (c : Char) : Option Nat :=
  if '0' ≤ c ∧ c ≤ '9' then some (c.toNat - 48)
  else if 'a' ≤ c ∧ c ≤ 'f' then some (c.toNat - 87)
  else if 'A' ≤ c ∧ c ≤ 'F' then some (c.toNat - 55)
  else none

def hexChar? (digits : List Char) : Option Char := do
  let values ← digits.mapM hexValue?
  let code := values.foldl (fun n digit => n * 16 + digit) 0
  if digits.isEmpty || !code.isValidChar then none else some (Char.ofNat code)

def readHex (count : Nat) (cs : List Char) : Option (Primitive × List Char) :=
  match cs with
  | '{' :: rest =>
    let digits := rest.takeWhile (· ≠ '}')
    match rest.dropWhile (· ≠ '}') with
    | _ :: after => (hexChar? digits).map fun c => (.literal c, after)
    | [] => none
  | _ =>
    if cs.length < count then none
    else (hexChar? (cs.take count)).map fun c => (.literal c, cs.drop count)

def readBoundary (cs : List Char) : Primitive × List Char :=
  match cs with
  | '{' :: rest =>
    let after := (rest.dropWhile (· ≠ '}')).drop 1
    let kinds : List (List Char × Assertion) :=
      [("start".toList, .wordStart), ("end".toList, .wordEnd),
       ("start-half".toList, .wordStartHalf), ("end-half".toList, .wordEndHalf)]
    match kinds.lookup (rest.takeWhile (· ≠ '}')) with
    | some kind => (.assertion kind, after)
    | none => (.assertion .boundary, cs)
  | _ => (.assertion .boundary, cs)

def readEscape : List Char → Option (Primitive × List Char)
  | [] => none
  | c :: cs =>
    match c with
    | 'd' => some (.set .digit, cs)
    | 'D' => some (.set (.complement .digit), cs)
    | 'w' => some (.set .word, cs)
    | 'W' => some (.set (.complement .word), cs)
    | 's' => some (.set .blank, cs)
    | 'S' => some (.set (.complement .blank), cs)
    | 'A' => some (.assertion .textStart, cs)
    | 'z' => some (.assertion .textEnd, cs)
    | 'b' => some (readBoundary cs)
    | 'B' => some (.assertion .noBoundary, cs)
    | '<' => some (.assertion .wordStart, cs)
    | '>' => some (.assertion .wordEnd, cs)
    | 'a' => some (.literal '\x07', cs)
    | 'f' => some (.literal '\x0c', cs)
    | 't' => some (.literal '\t', cs)
    | 'n' => some (.literal '\n', cs)
    | 'r' => some (.literal '\r', cs)
    | 'v' => some (.literal '\x0b', cs)
    | 'x' => readHex 2 cs
    | 'u' => readHex 4 cs
    | 'U' => readHex 8 cs
    | _ => if c.toNat < 128 && !c.isAlphanum then some (.literal c, cs) else none

/-! # Sets in brackets -/

def namedRanges? (name : String) : Option (List (Char × Char)) :=
  let lower := ('a', 'z')
  let upper := ('A', 'Z')
  let digits := ('0', '9')
  match name with
  | "alnum" => some [lower, upper, digits]
  | "alpha" => some [lower, upper]
  | "ascii" => some [('\x00', '\x7f')]
  | "blank" => some [('\t', '\t'), (' ', ' ')]
  | "cntrl" => some [('\x00', '\x1f'), ('\x7f', '\x7f')]
  | "digit" => some [digits]
  | "graph" => some [('!', '~')]
  | "lower" => some [lower]
  | "print" => some [(' ', '~')]
  | "punct" => some [('!', '/'), (':', '@'), ('[', Char.ofNat 96), (Char.ofNat 123, '~')]
  | "space" => some [('\t', '\r'), (' ', ' ')]
  | "upper" => some [upper]
  | "word" => some [lower, upper, digits, ('_', '_')]
  | "xdigit" => some [digits, ('a', 'f'), ('A', 'F')]
  | _ => none

def namedSet? (flags : Flags) (name : String) : Option CharSet :=
  (namedRanges? name).map fun ranges =>
    ranges.foldl (fun s (low, high) => .union s (flags.range low high)) .none

def readNamedSet (flags : Flags) (cs : List Char) : Option (CharSet × List Char) :=
  match cs with
  | ':' :: cs =>
    let (negated, cs) :=
      match cs with
      | '^' :: cs => (true, cs)
      | _ => (false, cs)
    match cs.dropWhile (·.isAlpha) with
    | ':' :: ']' :: rest =>
      (namedSet? flags (String.ofList (cs.takeWhile (·.isAlpha)))).map fun s =>
        (if negated then .complement s else s, rest)
    | _ => none
  | _ => none

inductive SetOperation where
  | intersection
  | difference
  | symmetricDifference

def SetOperation.apply : SetOperation → CharSet → CharSet → CharSet
  | intersection, s, t => .intersection s t
  | difference, s, t => s.difference t
  | symmetricDifference, s, t => s.symmetricDifference t

/-- A set whose bracket has not been closed: the members read since the last operation, and the
operation with what stands on its left. -/
structure OpenSet where
  negated : Bool
  members : CharSet
  pending : Option (SetOperation × CharSet) := none

def OpenSet.add (s : OpenSet) (t : CharSet) : OpenSet :=
  { s with members := .union s.members t }

def OpenSet.combined (s : OpenSet) : CharSet :=
  match s.pending with
  | some (operation, left) => operation.apply left s.members
  | none => s.members

def OpenSet.operate (s : OpenSet) (operation : SetOperation) : OpenSet :=
  { s with members := .none, pending := some (operation, s.combined) }

def OpenSet.close (s : OpenSet) : CharSet :=
  if s.negated then .complement s.combined else s.combined

/-- The start of a set, after its bracket: a sign that negates it, hyphens, and a closing bracket
that stands for itself. -/
def openSet (flags : Flags) (cs : List Char) : OpenSet × List Char :=
  let cs := flags.skip cs
  let (negated, cs) :=
    match cs with
    | '^' :: cs => (true, flags.skip cs)
    | _ => (false, cs)
  let hyphens := cs.takeWhile (· = '-')
  let cs := cs.dropWhile (· = '-')
  let set : OpenSet := { negated, members := .ofList hyphens }
  match hyphens, cs with
  | [], ']' :: cs => (set.add (.single ']'), cs)
  | _, _ => (set, cs)

def readMember : List Char → Option (Primitive × List Char)
  | [] => none
  | '\\' :: cs => readEscape cs
  | c :: cs => some (.literal c, cs)

def readRange (flags : Flags) (cs : List Char) : Option (CharSet × List Char) := do
  let (first, rest) ← readMember cs
  let rest := flags.skip rest
  let alone : Option (CharSet × List Char) :=
    match first with
    | .literal c => some (flags.range c c, rest)
    | .set s => some (s, rest)
    | .assertion _ => none
  match rest with
  | [] => none
  | '-' :: after =>
    match flags.skip after with
    | [] => none
    | ']' :: _ => alone
    | '-' :: _ => alone
    | after =>
      let (last, rest) ← readMember after
      match first, last with
      | .literal low, .literal high =>
        if low ≤ high then some (flags.range low high, rest) else none
      | _, _ => none
  | _ => alone

/-- Reads on inside brackets, of which `outer` are open around the innermost one. -/
def readSetFrom (flags : Flags) (set : OpenSet) (outer : List OpenSet) :
    Nat → List Char → Option (CharSet × List Char)
  | 0, _ => none
  | fuel + 1, cs =>
    match flags.skip cs with
    | [] => none
    | '[' :: cs =>
      match readNamedSet flags cs with
      | some (named, rest) => readSetFrom flags (set.add named) outer fuel rest
      | none =>
        let (inner, rest) := openSet flags cs
        readSetFrom flags inner (set :: outer) fuel rest
    | ']' :: cs =>
      match outer with
      | [] => some (set.close, cs)
      | around :: outer => readSetFrom flags (around.add set.close) outer fuel cs
    | '&' :: '&' :: cs => readSetFrom flags (set.operate .intersection) outer fuel cs
    | '-' :: '-' :: cs => readSetFrom flags (set.operate .difference) outer fuel cs
    | '~' :: '~' :: cs => readSetFrom flags (set.operate .symmetricDifference) outer fuel cs
    | cs => do
      let (member, rest) ← readRange flags cs
      readSetFrom flags (set.add member) outer fuel rest

def readSet (flags : Flags) (cs : List Char) : Option (CharSet × List Char) :=
  let (set, rest) := openSet flags cs
  readSetFrom flags set [] (cs.length + 1) rest

/-! # Groups and branches -/

structure OpenGroup where
  /-- The number of a group that remembers what it matched. -/
  index : Option Nat
  flags : Flags
  branches : List Pattern
  items : List (Option Pattern)

/-- What has been read. The branches of the innermost group and the items of its last branch are
listed newest first; an item that sets flags has no pattern. -/
structure Reading where
  rest : List Char
  flags : Flags := {}
  groups : Nat := 0
  names : List (String × Nat) := []
  branches : List Pattern := []
  items : List (Option Pattern) := []
  path : List OpenGroup := []

def Reading.add (r : Reading) (p : Pattern) (rest : List Char) : Reading :=
  { r with items := some p :: r.items, rest }

def concat (items : List (Option Pattern)) : Pattern :=
  sequence (items.filterMap id).reverse

def Reading.choice (r : Reading) : Pattern :=
  r.branches.foldl (fun after p => .either p after) (concat r.items)

def Reading.branch (r : Reading) (rest : List Char) : Reading :=
  { r with branches := concat r.items :: r.branches, items := [], rest }

def Reading.openGroup (r : Reading) (index : Option Nat) (flags : Flags) (rest : List Char) :
    Reading :=
  { r with
    rest
    flags
    branches := []
    items := []
    path := ⟨index, r.flags, r.branches, r.items⟩ :: r.path }

def Reading.openCapture (r : Reading) (name? : Option String) (rest : List Char) : Reading :=
  let index := r.groups + 1
  let names := (name?.map fun name => (name, index)).toList ++ r.names
  { r with groups := index, names }.openGroup (some index) r.flags rest

def Reading.closeGroup (r : Reading) (rest : List Char) : Option Reading :=
  match r.path with
  | [] => none
  | g :: path =>
    let p :=
      match g.index with
      | some index => .group index r.choice
      | none => r.choice
    some { r with
      rest
      flags := g.flags
      branches := g.branches
      items := some p :: g.items
      path }

/-! # What follows an opening parenthesis -/

def isGroupNameStart (c : Char) : Bool :=
  c == '_' || (isWord c && !isDigit c)

def isGroupNameChar (c : Char) : Bool :=
  isWord c || c == '.' || c == '[' || c == ']'

def Reading.openNamed (r : Reading) (cs : List Char) : Option Reading :=
  let name := cs.takeWhile (· ≠ '>')
  match name, cs.dropWhile (· ≠ '>') with
  | c :: more, _ :: rest =>
    let text := String.ofList name
    if isGroupNameStart c && more.all isGroupNameChar && (r.names.lookup text).isNone then
      some (r.openCapture (some text) rest)
    else none
  | _, _ => none

/-- The letters that set and clear flags, and what ends them. Each letter may stand once, a hyphen
once, and not at the end. -/
def readFlags (flags : Flags) (clearing : Bool) (seen : List Char) :
    List Char → Option (Flags × Char × List Char)
  | [] => none
  | c :: cs =>
    if c = ':' ∨ c = ')' then
      if seen.head? = some '-' then none else some (flags, c, cs)
    else if seen.contains c then none
    else if c = '-' then readFlags flags true (c :: seen) cs
    else do readFlags (← flags.set? (!clearing) c) clearing (c :: seen) cs

def Reading.open (r : Reading) (cs : List Char) : Option Reading :=
  match r.flags.skip cs with
  | '?' :: 'P' :: '<' :: cs => r.openNamed cs
  | '?' :: '<' :: '=' :: _ => none
  | '?' :: '<' :: '!' :: _ => none
  | '?' :: '<' :: cs => r.openNamed cs
  | '?' :: ')' :: _ => none
  | '?' :: cs => do
    let (flags, last, rest) ← readFlags r.flags false [] cs
    if last = ')' then some { r with flags, items := none :: r.items, rest }
    else some (r.openGroup none flags rest)
  | cs => some (r.openCapture none cs)

/-! # Repetitions -/

/-- Repeats the last item. A mark that follows makes the repetition reluctant. -/
def Reading.repeat (r : Reading) (least : Nat) (most : Option Nat) (rest : List Char) :
    Option Reading :=
  match r.items with
  | some p :: items =>
    let (reluctant, rest) :=
      match rest with
      | '?' :: rest => (true, rest)
      | _ => (false, rest)
    let greedy := reluctant == r.flags.swapGreed
    some { r with items := some (.repeated least most greedy p) :: items, rest }
  | _ => none

def readCount (cs : List Char) : Option (Nat × List Char) :=
  let cs := cs.dropWhile Text.isBlank
  let digits := cs.takeWhile (·.isDigit)
  let value := digits.foldl (fun n c => n * 10 + (c.toNat - 48)) 0
  if digits.isEmpty || Nat.pow 2 32 ≤ value then none
  else some (value, (cs.dropWhile (·.isDigit)).dropWhile Text.isBlank)

def Reading.repeatCounted (r : Reading) (cs : List Char) : Option Reading := do
  let (least, cs) ← readCount cs
  match cs with
  | '}' :: rest => r.repeat least (some least) rest
  | ',' :: cs =>
    match r.flags.skip cs with
    | '}' :: rest => r.repeat least none rest
    | cs =>
      let (most, cs) ← readCount cs
      match cs with
      | '}' :: rest => if least ≤ most then r.repeat least (some most) rest else none
      | _ => none
  | _ => none

/-! # Whole patterns -/

def Flags.dot (flags : Flags) : CharSet :=
  if flags.dotAll then .complement .none
  else if flags.carriageReturns then .complement (.ofList ['\n', '\r'])
  else .complement (.single '\n')

def Reading.next (r : Reading) (c : Char) (cs : List Char) : Option Reading :=
  match c with
  | '(' => r.open cs
  | ')' => r.closeGroup cs
  | '|' => some (r.branch cs)
  | '[' => do
    let (set, rest) ← readSet r.flags cs
    return r.add (.one set) rest
  | '*' => r.repeat 0 none cs
  | '+' => r.repeat 1 none cs
  | '?' => r.repeat 0 (some 1) cs
  | '{' => r.repeatCounted cs
  | '.' => some (r.add (.one r.flags.dot) cs)
  | '^' =>
    let start := if r.flags.multiLine then .lineStart r.flags.carriageReturns else .textStart
    some (r.add (.assertion start) cs)
  | '$' =>
    let stop := if r.flags.multiLine then .lineEnd r.flags.carriageReturns else .textEnd
    some (r.add (.assertion stop) cs)
  | '\\' => do
    let (primitive, rest) ← readEscape cs
    match primitive with
    | .literal c => return r.add (.one (r.flags.range c c)) rest
    | .set s => return r.add (.one s) rest
    | .assertion a => return r.add (.assertion a) rest
  | _ => some (r.add (.one (r.flags.range c c)) cs)

/-- Reads to the end. Every piece takes at least one character, so `fuel` is the length of the
text. -/
def Reading.run : Nat → Reading → Option Reading
  | 0, r => if r.rest.isEmpty then some r else none
  | fuel + 1, r =>
    match r.flags.skip r.rest with
    | [] => some r
    | c :: cs => r.next c cs >>= run fuel

def read? (text : String) : Option Expression := do
  let cs := text.toList
  let r ← Reading.run cs.length { rest := cs }
  if r.path.isEmpty then some { pattern := r.choice, names := r.names } else none

end Regex
end XmlShape
