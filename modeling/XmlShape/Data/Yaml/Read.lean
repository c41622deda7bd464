import XmlShape.Data.Readable
import XmlShape.Data.Yaml.Node

/-!
# Reading YAML

A node is read together with its document, so that an alias stands for the node it names. What a
scalar may be read as depends on whether it is plain: only a plain one is a number or a truth
value, while any is a text.
-/

namespace XmlShape
namespace Data
namespace Yaml

structure View where
  anchored : List (Nat × Node)
  node : Node

namespace View

def reach (v : View) (node : Node) : View :=
  { v with node }

def target (v : View) : Node :=
  match v.node with
  | .alias number => (v.anchored.lookup number).getD .empty
  | node => node

/-- The text of a scalar that may be read as something other than text: a plain one, or a literal
block with a tag that says so. -/
def typed? (type : String) (v : View) : Option String :=
  match v.target with
  | .scalar _ .plain text => some text
  | .scalar (some tag) .literal text =>
    if tag = "tag:yaml.org,2002:" ++ type then some text else none
  | _ => none

def bool? (v : View) : Option Bool :=
  v.typed? "bool" >>= Yaml.bool?

def count? (v : View) : Option Nat :=
  (v.typed? "int" >>= fun text => natural? text.toList).filter (· ≤ maxCount)

def text? (v : View) : Option String :=
  match v.target with
  | .scalar _ _ text => some text
  | _ => none

/-- A name is a scalar, or the tag of a node that holds nothing. -/
def choice? (v : View) : Option String :=
  match v.target with
  | .scalar (some tag) style text =>
    if tag.startsWith "!" then
      if style = .plain ∧ (text.isEmpty ∨ isNull text) then some (tag.drop 1).toString else none
    else some text
  | .scalar none _ text => some text
  | _ => none

def isMissing (v : View) : Bool :=
  match v.target with
  | .scalar _ .plain text => text.isEmpty
  | _ => false

def items? (v : View) : Option (List View) :=
  match v.target with
  | .list items => some (items.map v.reach)
  | _ => if v.isMissing then some [] else none

def fields? (v : View) : Option (List (String × View)) :=
  match v.target with
  | .map entries =>
    entries.mapM fun (key, value) => do
      return (← (v.reach key).text?, v.reach value)
  | _ => if v.isMissing then some [] else none

end View

instance : Readable View where
  bool? := View.bool?
  count? := View.count?
  text? := View.text?
  choice? := View.choice?
  items? := View.items?
  fields? := View.fields?

def read (text : String) : Option View := do
  let document ← tokens? text >>= Document.ofTokens?
  return { anchored := document.anchored, node := document.root }

end Yaml
end Data
end XmlShape
