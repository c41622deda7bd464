import XmlShape.Schema.Model

/-!
# Recursive names

The names of a model and the links from parents to their children are a directed graph. A name can
contain itself, directly or through other elements, if its strongly connected component has several
names or if it is linked to itself.
-/

namespace XmlShape
namespace Schema

structure NameGraph where
  names : List String
  links : List (String × String)
  names_nodup : names.Nodup
  mem_of_link : ∀ link ∈ links, link.1 ∈ names ∧ link.2 ∈ names

def edges (records : List Record) : List (String × String) :=
  records.filterMap fun r => r.parent.map fun parent => (parent, r.name)

theorem nodup_distinctNames (m : Model) : m.distinctNames.Nodup := by
  refine m.frequency.sorted.imp ?_
  rintro a _ h rfl
  exact String.lt_irrefl a h

def nameGraph (m : Model) : NameGraph where
  names := m.distinctNames
  links :=
    ((edges m.records).filter fun link =>
      link.1 ∈ m.distinctNames ∧ link.2 ∈ m.distinctNames).eraseDups
  names_nodup := nodup_distinctNames m
  mem_of_link := by
    intro link hlink
    rw [List.mem_eraseDups, List.mem_filter] at hlink
    exact of_decide_eq_true hlink.2

/-! # Ways through a graph -/

def successors (links : List (String × String)) (name : String) : List String :=
  (links.filter (·.1 = name)).map Prod.snd

/-- The names among `names` that can be reached from the pending ones, on ways that stay among
`names` and avoid those that have been `seen`. -/
def reach (links : List (String × String)) (names : List String) (seen : List String) :
    List String → List String
  | [] => seen
  | name :: pending =>
    if name ∈ names ∧ name ∉ seen then
      reach links names (name :: seen) (successors links name ++ pending)
    else reach links names seen pending
termination_by pending => ((names.filter (· ∉ seen)).length, pending.length)
decreasing_by
  · next h => exact Prod.Lex.left _ _ (length_filter_not_mem_lt h.1 h.2)
  · exact Prod.Lex.right _ (by simp)

namespace NameGraph

/-- The names at the end of a way of at least one link. -/
def reachable (g : NameGraph) (name : String) : List String :=
  reach g.links g.names [] (successors g.links name)

/-- The strongly connected components: two names are in the same one if each can be reached from the
other. -/
def components (g : NameGraph) : List (List String) :=
  let reached := g.names.map fun name => (name, g.reachable name)
  (reached.map fun (name, ahead) =>
    (reached.filter fun (other, back) => other = name ∨ other ∈ ahead ∧ name ∈ back).map
      Prod.fst).eraseDups

def hasCycle (g : NameGraph) (component : List String) : Bool :=
  1 < component.length || component.head?.any fun name => (name, name) ∈ g.links

end NameGraph

/-! # Names on cycles -/

/-- The names on cycles in ascending order, given how the strongly connected components of a graph
are listed. -/
def recursiveNamesBy (components : NameGraph → List (List String)) (m : Model) : List String :=
  let g := nameGraph m
  ((components g).filter g.hasCycle).flatten.mergeSort

def recursiveNames (m : Model) : List String :=
  recursiveNamesBy NameGraph.components m

end Schema
end XmlShape
