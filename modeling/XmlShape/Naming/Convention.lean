import XmlShape.NameMap
import XmlShape.Naming.Rule

/-!
# Naming conventions

Whether the name of a container is the plural of the name of its items is a matter of
vocabulary. A convention answers with the singulars that a name may have, the preferred one
first.
-/

namespace XmlShape
namespace Naming

inductive Convention where
  /-- No name is a plural. -/
  | noContainers
  | aliases (table : NameMap String)
  | rules (rules : List Substitution)
  | function (singular? : String → Option String)
  /-- A vocabulary that answers both questions by itself. -/
  | custom (singular? : String → Option String) (candidates : String → List String)
  /-- Several conventions, of which earlier ones are preferred. -/
  | chain (conventions : List Convention)

namespace Convention

mutual

def singular? (name : String) : Convention → Option String
  | noContainers => none
  | aliases table => table.get? name
  | rules rs => rs.findSome? (·.singular? name)
  | function f => f name
  | custom f _ => f name
  | chain conventions => firstSingular? name conventions

def firstSingular? (name : String) : List Convention → Option String
  | [] => none
  | c :: cs => (c.singular? name).or (firstSingular? name cs)

end

mutual

/-- Every plausible singular of a name. Only a `custom` convention may repeat one. -/
def candidates (name : String) : Convention → List String
  | rules rs => (rs.filterMap (·.singular? name)).eraseDups
  | chain conventions => (allCandidates name conventions).eraseDups
  | noContainers => []
  | aliases table => (table.get? name).toList
  | function f => (f name).toList
  | custom _ f => f name

def allCandidates (name : String) : List Convention → List String
  | [] => []
  | c :: cs => c.candidates name ++ allCandidates name cs

end

def english : Convention :=
  rules englishRules

def withoutSuffix (suffix : String) : Convention :=
  function fun name => (name.dropSuffix? suffix).map (·.toString)

end Convention

/-! # Settings -/

structure Settings where
  aliases : NameMap String := .empty
  rules : List Rule := []
  english : Bool := false
deriving Repr, Inhabited

namespace Settings

def isEmpty (s : Settings) : Bool :=
  s.aliases.isEmpty && s.rules.isEmpty && !s.english

/-- The convention that is set down: aliases first, then rules, then the rules for English. It is an
error if the pattern of a rule cannot be read; the error is that pattern. -/
def build (s : Settings) (reader : Regex.Reader := Regex.read?) : Except String Convention :=
  if s.isEmpty then .ok .noContainers
  else do
    let aliases := if s.aliases.isEmpty then [] else [.aliases s.aliases]
    let rules ←
      if s.rules.isEmpty then .ok []
      else do
        let substitutions ← compile s.rules reader
        .ok [Convention.rules substitutions]
    let english := if s.english then [.english] else []
    .ok (.chain (aliases ++ rules ++ english))

end Settings
end Naming
end XmlShape
