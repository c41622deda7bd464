import XmlShape.Data.Yaml.Token

/-!
# Nodes of YAML

A document is a node: a scalar, a list, a map, or the alias of a node that has been given an anchor.
Aliases are kept as such, so that a node may lie within the one it is the alias of.
-/

namespace XmlShape
namespace Data
namespace Yaml

inductive Node where
  | scalar (tag : Option String) (style : Style) (text : String)
  | list (items : List Node)
  | map (entries : List (Node × Node))
  /-- An alias of the node with a number. -/
  | alias (number : Nat)
deriving Repr, Inhabited

def Node.empty : Node :=
  .scalar none .plain ""

structure Document where
  root : Node
  anchored : List (Nat × Node)
deriving Repr

/-! # Reading tokens -/

structure Place where
  tokens : List Token
  handles : List (String × String)
  /-- The names of the anchors so far, the latest first. -/
  names : List String := []
  anchored : List (Nat × Node) := []

abbrev Reading := StateT Place Option

def peek : Reading (Option Token) :=
  return (← get).tokens.head?

def skip : Reading Unit :=
  modify fun p => { p with tokens := p.tokens.tail }

def isNext (ts : List Token) : Reading Bool :=
  return (← peek).any ts.contains

/-! ## Anchors and tags -/

def declare (name : String) : Reading Nat := do
  let p ← get
  set { p with names := name :: p.names }
  return p.names.length

def anchorNumber (name : String) : Reading Nat := do
  let names := (← get).names
  match names.idxOf? name with
  | some i => return names.length - 1 - i
  | none => failure

def resolveTag (handle suffix : String) : Reading String := do
  if handle.isEmpty then return suffix
  else
    match (← get).handles.lookup handle with
    | some expansion => return expansion ++ suffix
    | none => failure

structure Properties where
  anchor? : Option String := none
  tag? : Option String := none

def properties : Reading Properties := do
  match ← peek with
  | some (.anchor name) =>
    skip
    match ← peek with
    | some (.tag handle suffix) =>
      skip
      return { anchor? := name, tag? := ← resolveTag handle suffix }
    | _ => return { anchor? := name }
  | some (.tag handle suffix) =>
    skip
    match ← peek with
    | some (.anchor name) =>
      skip
      return { anchor? := name, tag? := ← resolveTag handle suffix }
    | _ => return { tag? := ← resolveTag handle suffix }
  | _ => return {}

def Properties.nothing (p : Properties) : Reading Node :=
  if p.anchor?.isSome || p.tag?.isSome then return .scalar p.tag? .plain "" else failure

def comma : Reading Unit := do
  if ← isNext [.comma] then skip else failure

/-! ## Nodes -/

inductive Setting where
  | block
  /-- In a block map, where a list needs no indentation. -/
  | entry
  | brackets
deriving DecidableEq

mutual

/-- A node. A node that holds nothing must have an anchor or a tag. -/
def node (fuel : Nat) (s : Setting) : Reading Node :=
  match fuel with
  | 0 => failure
  | fuel + 1 => do
    if let some (.alias name) ← peek then
      skip
      return .alias (← anchorNumber name)
    let p ← properties
    let number? ← p.anchor?.mapM declare
    let n ← content fuel s p
    if let some number := number? then
      modify fun place => { place with anchored := (number, n) :: place.anchored }
    return n

def content (fuel : Nat) (s : Setting) (p : Properties) : Reading Node :=
  match fuel with
  | 0 => failure
  | fuel + 1 => do
    match ← peek with
    | some (.scalar style text) =>
      skip
      return .scalar p.tag? style text
    | some .beginList =>
      skip
      .list <$> items fuel true
    | some .beginMap =>
      skip
      .map <$> entries fuel true
    | some .item =>
      if s = .entry then .list <$> unindentedItems fuel else p.nothing
    | some .beginBlockList =>
      if s = .brackets then p.nothing
      else
        skip
        .list <$> blockItems fuel
    | some .beginBlockMap =>
      if s = .brackets then p.nothing
      else
        skip
        .map <$> blockEntries fuel
    | _ => p.nothing

def nodeUnless (fuel : Nat) (s : Setting) (ends : List Token) : Reading Node :=
  match fuel with
  | 0 => failure
  | fuel + 1 => do
    if ← isNext ends then return .empty else node fuel s

def blockItems (fuel : Nat) : Reading (List Node) :=
  match fuel with
  | 0 => failure
  | fuel + 1 => do
    match ← peek with
    | some .item =>
      skip
      let n ← nodeUnless fuel .block [.item, .endBlock]
      return n :: (← blockItems fuel)
    | some .endBlock =>
      skip
      return []
    | _ => failure

/-- The items of a list that is not indented, which ends where no dash follows. -/
def unindentedItems (fuel : Nat) : Reading (List Node) :=
  match fuel with
  | 0 => failure
  | fuel + 1 => do
    match ← peek with
    | some .item =>
      skip
      let n ← nodeUnless fuel .block [.item, .key, .value, .endBlock]
      return n :: (← unindentedItems fuel)
    | _ => return []

def blockEntries (fuel : Nat) : Reading (List (Node × Node)) :=
  match fuel with
  | 0 => failure
  | fuel + 1 => do
    match ← peek with
    | some .key =>
      skip
      let k ← nodeUnless fuel .entry [.key, .value, .endBlock]
      let v ← valueOf fuel .entry [.key, .value, .endBlock]
      return (k, v) :: (← blockEntries fuel)
    | some .endBlock =>
      skip
      return []
    | _ => failure

def valueOf (fuel : Nat) (s : Setting) (ends : List Token) : Reading Node :=
  match fuel with
  | 0 => failure
  | fuel + 1 => do
    if ← isNext [.value] then
      skip
      nodeUnless fuel s ends
    else return .empty

def items (fuel : Nat) (first : Bool) : Reading (List Node) :=
  match fuel with
  | 0 => failure
  | fuel + 1 => do
    if ← isNext [.endList] then
      skip
      return []
    if !first then comma
    match ← peek with
    | some .endList =>
      skip
      return []
    | some .key =>
      skip
      let n ← pair fuel
      return n :: (← items fuel false)
    | _ =>
      let n ← node fuel .brackets
      return n :: (← items fuel false)

/-- A key and its value as an item of a list: a map of one entry. An indicator in the place of the
key is passed over. -/
def pair (fuel : Nat) : Reading Node :=
  match fuel with
  | 0 => failure
  | fuel + 1 => do
    let k ←
      if ← isNext [.value, .comma, .endList] then do
        skip
        pure Node.empty
      else node fuel .brackets
    let v ← valueOf fuel .brackets [.comma, .endList]
    return .map [(k, v)]

def entries (fuel : Nat) (first : Bool) : Reading (List (Node × Node)) :=
  match fuel with
  | 0 => failure
  | fuel + 1 => do
    if ← isNext [.endMap] then
      skip
      return []
    if !first then comma
    match ← peek with
    | some .endMap =>
      skip
      return []
    | some .key =>
      skip
      let k ← nodeUnless fuel .brackets [.value, .comma, .endMap]
      let v ← valueOf fuel .brackets [.comma, .endMap]
      return (k, v) :: (← entries fuel false)
    | _ =>
      let k ← node fuel .brackets
      return (k, .empty) :: (← entries fuel false)

end

/-! # Documents -/

def defaultHandles : List (String × String) :=
  [("!", "!"), ("!!", "tag:yaml.org,2002:")]

/-- The handles that directives set, none of them twice. The version is given once at most, and is
one that can be read. -/
def handlesOf? : List Token → Option (List (String × String))
  | [] => some []
  | .version major minor :: ts => do
    let again := ts.any fun t => t matches .version ..
    if !again && major = 1 && (minor = 1 || minor = 2) then handlesOf? ts else none
  | .tagHandle handle expansion :: ts => do
    let handles ← handlesOf? ts
    if (handles.lookup handle).isSome then none else some ((handle, expansion) :: handles)
  | _ => none

def isDirective (t : Token) : Bool :=
  t matches .version .. | .tagHandle ..

def markedRoot (fuel : Nat) : Reading Node := do
  match ← peek with
  | none => return .empty
  | some t =>
    if isDirective t || t = .beginDocument || t = .endDocument then return .empty
    else node fuel .block

def Document.ofTokens? (tokens : List Token) : Option Document := do
  let directives := tokens.takeWhile isDirective
  let handles := (← handlesOf? directives) ++ defaultHandles
  let fuel := 4 * tokens.length + 4
  let (root, p) ←
    match tokens.dropWhile isDirective with
    | .beginDocument :: ts => (markedRoot fuel).run { tokens := ts, handles }
    | [] => if directives.isEmpty then some (.empty, { tokens := [], handles }) else none
    | ts => if directives.isEmpty then (node fuel .block).run { tokens := ts, handles } else none
  if (p.tokens.dropWhile (· = .endDocument)).isEmpty then
    some { root, anchored := p.anchored }
  else none

end Yaml
end Data
end XmlShape
