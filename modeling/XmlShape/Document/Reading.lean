import XmlShape.Document.Element
import XmlShape.Document.Fault
import XmlShape.Markup.Attribute
import XmlShape.Markup.Token

/-!
# Reading documents

The items of a document are folded into a tree. What is being built is a path of open elements,
innermost first, and the root once it is closed; the first fault in reading order ends the
reading.
-/

namespace XmlShape

structure ReadingOptions where
  trim : Bool
  depthLimit : Nat
deriving DecidableEq, Repr

namespace Document

open Markup Text

structure OpenElement where
  name : String
  attributes : List (String × String)
  children : List Element := []
  text : String := ""

def OpenElement.close (o : OpenElement) : Element :=
  ⟨o.name, o.attributes, o.children.reverse, o.text⟩

structure Progress where
  path : List OpenElement := []
  root : Option Element := none

namespace Progress

/-- Puts a finished element where it belongs: into the innermost open element or, if there is
none, at the root. -/
def attach (p : Progress) (e : Element) : Progress :=
  match p.path with
  | [] => { p with root := some e }
  | parent :: path => { p with path := { parent with children := e :: parent.children } :: path }

def append (p : Progress) (cs : List Char) : Progress :=
  match p.path with
  | [] => p
  | parent :: path =>
    { p with path := { parent with text := parent.text ++ String.ofList cs } :: path }

/-- The element that a tag opens. A second root is refused before the attributes are read, and
the depth is looked at after them. -/
def openTag (options : ReadingOptions) (p : Progress) (content : List Char) :
    Except DocumentFault OpenElement :=
  let name := String.ofList (tagName content)
  match p.root with
  | some root => .error (.secondRoot root.name name)
  | none =>
    match tagAttributes content with
    | .error fault => .error (.attribute name fault)
    | .ok attributes =>
      if options.depthLimit < p.path.length + 1 then
        .error (.tooDeep (p.path.length + 1) options.depthLimit)
      else .ok { name, attributes }

def closeTag (p : Progress) (offset : Nat) (name : List Char) : Except DocumentFault Progress :=
  match p.path with
  | [] => .error (.markup offset (.illFormed (.unmatchedEnd (String.ofList name))))
  | current :: path =>
    if current.name = String.ofList name then .ok ({ p with path }.attach current.close)
    else
      .error (.markup offset (.illFormed (.mismatchedEnd current.name (String.ofList name))))

/-- Adds a text that ends at `offset`. Text outside the root is not looked at. -/
def addText (options : ReadingOptions) (p : Progress) (offset : Nat) (raw : List Char) :
    Except DocumentFault Progress :=
  match p.path with
  | [] => .ok p
  | _ :: _ =>
    match unescape (if options.trim then trim isSpace raw else raw) with
    | .ok cs => .ok (p.append cs)
    | .error fault => .error (.markup offset (.reference fault))

def step (options : ReadingOptions) (p : Progress) : Item → Except DocumentFault Progress
  | .fault offset fault => .error (.markup offset fault)
  | .token offset token =>
    match token with
    | .text raw => p.addText options offset raw
    | .cdata raw => .ok (p.append raw)
    | .ignored => .ok p
    | .startTag content => do
      let e ← p.openTag options content
      return { p with path := e :: p.path }
    | .emptyTag content => do
      let e ← p.openTag options content
      return p.attach e.close
    | .endTag name => p.closeTag offset name

def finish (p : Progress) : Except DocumentFault Element :=
  match p.path with
  | innermost :: _ => .error (.unclosed innermost.name)
  | [] =>
    match p.root with
    | some root => .ok root
    | none => .error .empty

end Progress

def build (options : ReadingOptions) (items : List Item) : Except DocumentFault Element := do
  let p ← items.foldlM (Progress.step options) {}
  p.finish

def read (options : ReadingOptions) (text : String) : Except DocumentFault Element :=
  build options (items text.toList)

def readBytes (options : ReadingOptions) (bytes : List UInt8) : Except DocumentFault Element :=
  match Utf8.decode bytes with
  | .ok text => read options text
  | .error fault => .error (.encoding fault)

end Document
end XmlShape
