import XmlShape.Data.Readable
import XmlShape.Data.Toml.Node

/-!
# Reading TOML

The tokens of a text are folded into sections. What is being built is a path of open lists and
tables, innermost first, and the machine knows which kinds of token may come next.
-/

namespace XmlShape
namespace Data
namespace Toml

/-! # Keys -/

inductive KeyPart where
  | name (s : String)
  | point

def isNameChar (c : Char) : Bool :=
  c.isAlphanum || c == '_' || c == '-'

def wordParts (raw : List Char) : List Char → Option (List KeyPart)
  | [] => some (named raw)
  | '.' :: cs => (wordParts [] cs).map fun parts => named raw ++ .point :: parts
  | c :: cs => if isNameChar c then wordParts (c :: raw) cs else none
where
  named (raw : List Char) : List KeyPart :=
    if raw.isEmpty then [] else [.name (String.ofList raw.reverse)]

def keyParts (t : Token) : Option (List KeyPart) :=
  match t with
  | .word cs => wordParts [] cs
  | .text false s => some [.name s]
  | .blank => some []
  | _ => none

def names? : List KeyPart → Option Key
  | [.name s] => some [s]
  | .name s :: .point :: parts => (names? parts).map (s :: ·)
  | _ => none

def keyLimit : Nat := 80

def key? (tokens : List Token) : Option Key := do
  let parts ← tokens.reverse.mapM keyParts
  let key ← names? parts.flatten
  if key.length < keyLimit then some key else none

/-! # The machine -/

inductive Open where
  | list (items : List Node)
  | table (table : Node)
  /-- A table in which the value of a key is being read. -/
  | entry (table : Node) (key : Key)
  /-- A line with a key. -/
  | line (key : Key)

inductive Expected where
  | line
  | lineEnd
  /-- A second bracket, or a header. -/
  | secondBracket
  | header (several : Bool) (key : List Token)
  /-- The second bracket after a header. -/
  | lastBracket (key : List Token)
  | key (key : List Token)
  | firstKey
  | value
  | item
  | separator

structure State where
  path : List Open := []
  expected : Expected := .line
  /-- The latest section first. -/
  sections : List Section := [{ header := [], several := false }]

def nestingLimit : Nat := 80

namespace State

def attach (s : State) (n : Node) : Option State :=
  match s.path with
  | .list items :: path => some { s with path := .list (n :: items) :: path, expected := .separator }
  | .entry table key :: path => do
    let table ← table.add key n
    some { s with path := .table table :: path, expected := .separator }
  | .line key :: path =>
    match s.sections with
    | current :: earlier =>
      let current := { current with values := (key, n) :: current.values }
      some { path, expected := .lineEnd, sections := current :: earlier }
    | [] => none
  | _ => none

def openWith (s : State) (o : Open) (expected : Expected) : Option State :=
  if s.path.length ≤ nestingLimit then some { s with path := o :: s.path, expected } else none

def begin (s : State) (t : Token) : Option State :=
  match t with
  | .blank => some s
  | .text _ text => s.attach (.text text)
  | .word cs => word? cs >>= fun w => s.attach (.word w)
  | .bracket => s.openWith (.list []) .item
  | .brace => s.openWith (.table (.table .inline [])) .firstKey
  | _ => none

def close (s : State) (t : Token) : Option State :=
  match t, s.path with
  | .endBracket, .list items :: path => { s with path }.attach (.list items.reverse)
  | .endBrace, .table table :: path => { s with path }.attach table
  | _, _ => none

def keyStep (s : State) (key : List Token) (t : Token) : Option State :=
  match t with
  | .equals => do
    let key ← key? key
    match s.path with
    | .table table :: path => some { s with path := .entry table key :: path, expected := .value }
    | [] => some { s with path := [.line key], expected := .value }
    | _ => none
  | .word _ | .text .. | .blank => some { s with expected := .key (t :: key) }
  | _ => none

def openSection (s : State) (several : Bool) (key : List Token) : Option State := do
  let header ← key? key
  some { s with expected := .lineEnd, sections := { header, several } :: s.sections }

def headerStep (s : State) (several : Bool) (key : List Token) (t : Token) : Option State :=
  match t with
  | .endBracket =>
    if several then some { s with expected := .lastBracket key } else s.openSection false key
  | .word _ | .text .. | .blank => some { s with expected := .header several (t :: key) }
  | _ => none

def separatorStep (s : State) (t : Token) : Option State :=
  match t, s.path with
  | .blank, _ => some s
  | .newLine, .list _ :: _ => some s
  | .comma, .list _ :: _ => some { s with expected := .item }
  | .comma, .table _ :: _ => some { s with expected := .key [] }
  | _, _ => s.close t

def step (s : State) (t : Token) : Option State :=
  match s.expected with
  | .line =>
    match t with
    | .newLine | .blank => some s
    | .bracket => some { s with expected := .secondBracket }
    | _ => s.keyStep [] t
  | .lineEnd =>
    match t with
    | .blank => some s
    | .newLine => some { s with expected := .line }
    | _ => none
  | .secondBracket =>
    if t = .bracket then some { s with expected := .header true [] } else s.headerStep false [] t
  | .header several key => s.headerStep several key t
  | .lastBracket key => if t = .endBracket then s.openSection true key else none
  | .key key => s.keyStep key t
  | .firstKey => if t = .endBrace then s.close t else
    if t = .blank then some s else s.keyStep [] t
  | .value => s.begin t
  | .item =>
    match t with
    | .newLine => some s
    | .endBracket => s.close t
    | _ => s.begin t
  | .separator => s.separatorStep t

end State

def sections? (text : String) : Option (List Section) := do
  let s ← (← tokens? text).foldlM State.step {}
  match s.expected with
  | .line | .lineEnd => some s.sections.reverse
  | _ => none

def read (text : String) : Option Node :=
  sections? text >>= assemble?

/-! # Nodes as readable values -/

namespace Node

def bool? : Node → Option Bool
  | .word (.bool b) => some b
  | _ => none

def count? : Node → Option Nat
  | .word (.integer (.ofNat n)) => some n
  | _ => none

def text? : Node → Option String
  | .text s => some s
  | _ => none

def isEmpty : Node → Bool
  | .list items => items.isEmpty
  | .table _ entries => entries.isEmpty
  | _ => false

/-- A name may also be written as the name of an empty list or table in a table. -/
def choice? : Node → Option String
  | .text s => some s
  | .table .inline [(name, n)] => if n.isEmpty then some name else none
  | .table .inline _ => none
  | .table _ ((name, n) :: _) => if n.isEmpty then some name else none
  | _ => none

def items? : Node → Option (List Node)
  | .list items => some items
  | .tables items => some items.reverse
  | _ => none

/-- A date or time is a record of its own kind. -/
def fields? : Node → Option (List (String × Node))
  | .table _ entries => some entries
  | .word (.moment s) => some [("$__toml_private_datetime", .text s)]
  | _ => none

end Node

instance : Readable Node where
  bool? := Node.bool?
  count? := Node.count?
  text? := Node.text?
  choice? := Node.choice?
  items? := Node.items?
  fields? := Node.fields?
  surplus := true

end Toml
end Data
end XmlShape
