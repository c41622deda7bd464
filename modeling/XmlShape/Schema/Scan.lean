import XmlShape.Schema.Classify
import XmlShape.Schema.Similarity

/-!
# Scanning

A tree is walked once. An element is counted when it is entered, and its record is made after the
records of its children, so that descendants come before ancestors and the root is last.
-/

namespace XmlShape
namespace Schema

inductive Scope where
  /-- All that have been entered so far, anywhere in the document. -/
  | document
  /-- The siblings up to the element itself. -/
  | parent
deriving DecidableEq, Repr, Inhabited

structure ScanOptions where
  truthValues : Bool
  scope : Scope
deriving DecidableEq, Repr

/-- What has been found out about the part of the tree that has been walked. -/
structure Survey where
  frequency : NameMap Nat := .empty
  /-- The records, newest first. -/
  records : List Record := []

def Survey.enter (s : Survey) (name : String) : Survey :=
  { s with frequency := s.frequency.update name fun n? => n?.getD 0 + 1 }

/-- The record of an element, made after those of its children. -/
def recordOf (options : ScanOptions) (frequency : NameMap Nat) (parent : Option String)
    (depth sibling : Nat) (children : List Child) (e : Element) : Record where
  name := e.name
  type := classify options.truthValues e
  parent
  children
  attributes := .ofList e.attributes
  occurrences :=
    match options.scope with
    | .document => (frequency.get? e.name).getD 1
    | .parent => sibling
  depth

mutual

def survey (options : ScanOptions) (parent : Option String) (depth sibling : Nat) (s : Survey) :
    Element → Survey
  | ⟨name, attributes, children, text⟩ =>
    let e : Element := ⟨name, attributes, children, text⟩
    let s := surveyAll options name (depth + 1) .empty (s.enter name) children
    let summaries := children.map fun child =>
      { name := child.name, type := classify options.truthValues child, parent := name }
    let record := recordOf options s.frequency parent depth sibling summaries e
    { s with records := record :: s.records }

/-- Walks the children of an element, of which those of each name have been counted. -/
def surveyAll (options : ScanOptions) (parent : String) (depth : Nat) (counts : NameMap Nat)
    (s : Survey) : List Element → Survey
  | [] => s
  | e :: es =>
    let sibling := (counts.get? e.name).getD 0 + 1
    let s := survey options parent depth sibling s e
    surveyAll options parent depth (counts.insert e.name sibling) s es

end

def scan (options : ScanOptions) (root : Element) : Model :=
  let s := survey options none 0 1 {} root
  let records := s.records.reverse
  { root := root.name
    records
    frequency := s.frequency
    patterns := repeatingPatterns records s.frequency }

end Schema
end XmlShape
