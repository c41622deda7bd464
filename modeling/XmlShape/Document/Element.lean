/-!
# Elements

The tree of a document. A name is kept as it is written, attributes and children are in document
order, and `text` is all character data directly inside the element.
-/

namespace XmlShape

structure Element where
  name : String
  attributes : List (String × String) := []
  children : List Element := []
  text : String := ""
deriving Inhabited, BEq, Repr

namespace Element

def hasChildren (e : Element) : Bool :=
  !e.children.isEmpty

/-- The value of the first attribute with a key. -/
def attribute? (e : Element) (key : String) : Option String :=
  e.attributes.lookup key

/-! # Size and depth -/

mutual

def count : Element → Nat
  | ⟨_, _, children, _⟩ => 1 + countAll children

def countAll : List Element → Nat
  | [] => 0
  | e :: es => e.count + countAll es

end

theorem count_eq (e : Element) : e.count = 1 + countAll e.children := by
  cases e
  rfl

theorem countAll_append (es fs : List Element) :
    countAll (es ++ fs) = countAll es + countAll fs := by
  induction es with
  | nil => simp [countAll]
  | cons e es ih => simp [countAll, ih, Nat.add_assoc]

theorem countAll_reverse (es : List Element) : countAll es.reverse = countAll es := by
  induction es with
  | nil => rfl
  | cons e es ih =>
    simp [countAll_append, countAll, ih, Nat.add_comm]

/-- The greatest level among `deepest` and the levels of all elements below the pending ones,
each of which is given with its own level. The element put last is taken first. -/
def deepestOf (deepest : Nat) : List (Element × Nat) → Nat
  | [] => deepest
  | (e, level) :: pending =>
    deepestOf (max deepest level) ((e.children.map (·, level + 1)).reverse ++ pending)
termination_by pending => countAll (pending.map Prod.fst)
decreasing_by
  simp only [List.map_append, List.map_reverse, List.map_map, Function.comp_def,
    countAll_append, countAll_reverse, List.map_cons, countAll, count_eq e,
    List.attach_map_subtype_val]
  omega

def depth (e : Element) : Nat :=
  deepestOf 0 [(e, 1)]

end Element
end XmlShape
