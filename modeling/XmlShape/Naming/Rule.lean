import XmlShape.Regex.Read
import XmlShape.Regex.Template

/-!
# Substitution rules

A rule turns a plural into a singular: it replaces the leftmost match of a pattern. A rule has
nothing to say about a name that does not match, that it leaves unchanged or that it would turn
into nothing.
-/

namespace XmlShape
namespace Naming

open Regex

structure Rule where
  pattern : String
  replacement : String
deriving DecidableEq, Repr, Inhabited

structure Substitution where
  expression : Expression
  replacement : String
deriving DecidableEq, Repr

def Substitution.singular? (r : Substitution) (name : String) : Option String :=
  (r.expression.replace? r.replacement name).filter fun singular =>
    !singular.isEmpty && singular != name

/-- Reads the patterns of a list of rules, the first that is none being the error. -/
def compile (rules : List Rule) (reader : Reader := read?) : Except String (List Substitution) :=
  rules.mapM fun rule =>
    match reader rule.pattern with
    | some expression => .ok ⟨expression, rule.replacement⟩
    | none => .error rule.pattern

/-! # English plurals

The rules for common English plurals: `categories` is the plural of `category`, `boxes` that of
`box` and `books` that of `book`. -/

def anything : Pattern :=
  .repeated 1 none true (.one (.complement (.single '\n')))

def withSuffix (stem : List Pattern) (suffix : List Char) : Expression :=
  { pattern :=
      sequence ([.assertion .textStart, .group 1 (sequence stem)] ++ literal suffix ++
        [.assertion .textEnd]) }

/-- `^(.+[^aeiou])ies$` is replaced by `${1}y`. -/
def iesRule : Substitution where
  expression :=
    withSuffix [anything, .one (.complement (.ofList ['a', 'e', 'i', 'o', 'u']))] ['i', 'e', 's']
  replacement := "$\x7b1\x7dy"

/-- `^(.+(?:ss|sh|ch|x))es$` is replaced by `${1}`. -/
def esRule : Substitution where
  expression :=
    withSuffix
      [anything,
        .either (sequence (literal ['s', 's']))
          (.either (sequence (literal ['s', 'h']))
            (.either (sequence (literal ['c', 'h'])) (sequence (literal ['x']))))]
      ['e', 's']
  replacement := "$\x7b1\x7d"

/-- `^(.+[^s])s$` is replaced by `${1}`. -/
def sRule : Substitution where
  expression := withSuffix [anything, .one (.complement (.ofList ['s']))] ['s']
  replacement := "$\x7b1\x7d"

def englishRules : List Substitution :=
  [iesRule, esRule, sRule]

theorem read?_english :
    read? "^(.+[^aeiou])ies$" = some iesRule.expression ∧
      read? "^(.+(?:ss|sh|ch|x))es$" = some esRule.expression ∧
      read? "^(.+[^s])s$" = some sRule.expression := by
  decide +kernel

end Naming
end XmlShape
