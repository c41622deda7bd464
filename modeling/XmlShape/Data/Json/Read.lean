import XmlShape.Data.Json.Token
import XmlShape.Data.Value

/-!
# Reading JSON

The tokens of a JSON text are folded into a value. What is being built is a path of open lists
and records, innermost first, and the machine knows which kinds of token may come next.
-/

namespace XmlShape
namespace Data
namespace Json

/-- A list or record that has not been closed, with what it holds, newest first. -/
inductive Open where
  | list (items : List Value)
  | record (fields : List (String × Value))
  /-- A record in which the value of a field is being read. -/
  | field (fields : List (String × Value)) (name : String)

inductive Expected where
  | value
  | firstItem
  | firstName
  | name
  | colon
  | separator
  | done (value : Value)

structure State where
  path : List Open := []
  expected : Expected := .value

def wordValue? (cs : List Char) : Option Value :=
  if cs = ['t', 'r', 'u', 'e'] then some (.bool true)
  else if cs = ['f', 'a', 'l', 's', 'e'] then some (.bool false)
  else if cs = ['n', 'u', 'l', 'l'] then some .null
  else
    (number? cs).map fun
      | .integer i => .integer i
      | .real x => .real x

def State.attach (s : State) (value : Value) : Option State :=
  match s.path with
  | [] => some { path := [], expected := .done value }
  | .list items :: path => some { path := .list (value :: items) :: path, expected := .separator }
  | .field fields name :: path =>
    some { path := .record ((name, value) :: fields) :: path, expected := .separator }
  | .record _ :: _ => none

def State.close (s : State) (token : Token) : Option State :=
  match token, s.path with
  | .endList, .list items :: path => { s with path }.attach (.list items.reverse)
  | .endRecord, .record fields :: path => { s with path }.attach (.record fields.reverse)
  | _, _ => none

def State.begin (limit : Nat) (s : State) (token : Token) : Option State :=
  match token with
  | .text t => s.attach (.text t)
  | .word cs => wordValue? cs >>= s.attach
  | .beginList =>
    if s.path.length < limit then some { path := .list [] :: s.path, expected := .firstItem }
    else none
  | .beginRecord =>
    if s.path.length < limit then some { path := .record [] :: s.path, expected := .firstName }
    else none
  | _ => none

def State.beginField (s : State) (token : Token) : Option State :=
  match token, s.path with
  | .text name, .record fields :: path =>
    some { path := .field fields name :: path, expected := .colon }
  | _, _ => none

def State.step (limit : Nat) (s : State) (token : Token) : Option State :=
  match s.expected with
  | .value => s.begin limit token
  | .firstItem => if token = .endList then s.close token else s.begin limit token
  | .firstName => if token = .endRecord then s.close token else s.beginField token
  | .name => s.beginField token
  | .colon => if token = .colon then some { s with expected := .value } else none
  | .separator =>
    if token = .comma then
      match s.path with
      | .list _ :: _ => some { s with expected := .value }
      | .record _ :: _ => some { s with expected := .name }
      | _ => none
    else s.close token
  | .done _ => none

def readWithin (limit : Nat) (text : String) : Option Value := do
  let s ← (← tokens text).foldlM (State.step limit) {}
  match s.expected with
  | .done value => some value
  | _ => none

def nestingLimit : Nat := 127

def read (text : String) : Option Value :=
  readWithin nestingLimit text

end Json
end Data
end XmlShape
