import Reports.Sql.Dialect
import Reports.Sql.Vocabulary
import Reports.Json.Printer

/-! Predicates: one comparison of a WHERE clause each. A predicate has a template, which does
not depend on any counter; rendering fills it. -/
namespace Reports.Sql

/-- How a predicate with the custom operator is written: from selector, values and dialect. -/
abbrev Renderer := String → List Json → Dialect → Except Error Template

structure Predicate where
  selector : String
  operator : Operator
  values : List Json
  conjunction : Conjunction := .and
  subquery : Option Template := none
  rawConditions : List Statement := []
  renderer : Option Renderer := none

/-- Writes `\` before the characters that a pattern would read as wildcards or escapes. -/
def escapeLikeChar (c : Char) : List Char :=
  if c = '\\' ∨ c = '%' ∨ c = '_' then ['\\', c] else [c]

def escapeLike (s : String) : String := Text.mapChars escapeLikeChar s

def substringPattern (s : String) : String := "%" ++ escapeLike s ++ "%"

def neverTrue : Renderer := fun _ _ _ => .ok (.ofText "1 = 0")

namespace Predicate

/-- Lists among the values are opened, one level deep. -/
def flatten (values : List Json) : List Json :=
  values.flatMap fun
    | .array items => items
    | v => [v]

def new (selector : String) (values : List Json) (operator : Operator)
    (conjunction : Conjunction := .and) : Predicate :=
  { selector, operator, values := flatten values, conjunction }

def never (selector : String) : Predicate :=
  { new selector [] .custom with renderer := some neverTrue }

def setSubquery (p : Predicate) (query : Template) : Predicate :=
  { p with subquery := some query }

def andRaw (p : Predicate) (condition : Statement) : Predicate :=
  { p with rawConditions := p.rawConditions ++ [condition] }

def emptyError (p : Predicate) : Error := .emptyPredicate p.selector p.operator.display

/-- The first value; operators that compare with one value need it. -/
def firstValue (p : Predicate) : Except Error Json :=
  match p.values with
  | [] => .error p.emptyError
  | v :: _ => .ok v

def base (p : Predicate) (d : Dialect) : Except Error Template :=
  match p.operator with
  | .inList =>
    if p.values.isEmpty then .error p.emptyError else .ok (inOrEqual p.selector p.values false)
  | .notInList =>
    if p.values.isEmpty then .error p.emptyError else .ok (inOrEqual p.selector p.values true)
  | .inQuery => within p ""
  | .notInQuery => within p "NOT "
  | .like => do
    let v ← p.firstValue
    return ⟨[.text (p.selector ++ " " ++ d.likeKeyword ++ " "), .hole v], ∅⟩
  | .likeWildcard => do
    let v ← p.firstValue
    return ⟨[.text (p.selector ++ " " ++ d.likeKeyword ++ " "),
      .hole (.string (substringPattern v.plain)), .text " ESCAPE '\\'"], ∅⟩
  | .custom =>
    match p.renderer with
    | some render => render p.selector p.values d
    | none => .error (.customOperator p.selector)
  | .unsupported name => .error (.unsupportedOperator p.selector name)
  | op => do
    let v ← p.firstValue
    return ⟨[.text (p.selector ++ " " ++ op.symbol?.getD "=" ++ " "), .hole v], ∅⟩
where
  within (p : Predicate) (negation : String) : Except Error Template :=
    match p.subquery with
    | some q =>
      .ok ⟨.text (p.selector ++ " " ++ negation ++ "IN (") :: q.pieces ++ [.text ")"], q.params⟩
    | none => .error p.emptyError

/-- The comparison and the raw conditions, all in one pair of parentheses. -/
def template (p : Predicate) (d : Dialect) : Except Error Template := do
  let t ← p.base d
  if p.rawConditions.isEmpty then return t
  else
    let raw := p.rawConditions.map fun r => " AND " ++ r.sql
    return ⟨.text "(" :: t.pieces ++ [.text (String.join raw ++ ")")],
      p.rawConditions.foldl (fun acc r => acc.merge r.params) t.params⟩

def render (p : Predicate) (d : Dialect) : Draw Statement := fun n =>
  match p.template d with
  | .ok t => t.fill n
  | .error e => (.error e, n)

end Predicate

end Reports.Sql
