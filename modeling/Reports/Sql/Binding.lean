import Reports.Sql.Dialect
import Reports.Text.Scanner

/-! Binding: a statement with named placeholders becomes one with positional placeholders and
a list of values. Quoted literals, quoted identifiers and `::` casts are left alone; a name
that stands several times is bound once. -/
namespace Reports.Sql

structure Bound where
  sql : String
  values : List Json
  deriving Repr, Inhabited

namespace Binding

inductive Token
  | char (c : Char)
  | parameter (name : List Char)
  deriving Repr, DecidableEq

inductive State
  | plain
  | colon
  /-- Inside a name, last character first. -/
  | name (acc : List Char)
  | quoted (quote : Char)
  deriving Repr, DecidableEq

def stepPlain (c : Char) : List Token × State :=
  if c = ':' then ([], .colon)
  else if c = '\x27' ∨ c = '\x22' then ([.char c], .quoted c)
  else ([.char c], .plain)

def scanner : Text.Scanner State Token where
  step
    | .quoted q, c => ([.char c], if c = q then .plain else .quoted q)
    | .colon, c =>
      if c = ':' then ([.char ':', .char ':'], .plain)
      else if Text.isNameStart c then ([], .name [c])
      else (.char ':' :: (stepPlain c).1, (stepPlain c).2)
    | .name acc, c =>
      if Text.isNameChar c then ([], .name (c :: acc))
      else (.parameter acc.reverse :: (stepPlain c).1, (stepPlain c).2)
    | .plain, c => stepPlain c
  finish
    | .colon => [.char ':']
    | .name acc => [.parameter acc.reverse]
    | _ => []

def tokens (sql : String) : List Token := scanner.run .plain sql.toList

def rank? (name : String) : List (String × Json) → Option Nat
  | [] => none
  | (n, _) :: rest => if n = name then some 0 else (rank? name rest).map (· + 1)

/-- Numbers the names by first appearance; `seen` holds those before with their values. -/
def resolve (d : Dialect) (params : Params) (seen : List (String × Json)) :
    List Token → Except Error Bound
  | [] => .ok ⟨"", seen.map Prod.snd⟩
  | .char c :: rest => do
    let b ← resolve d params seen rest
    return { b with sql := String.ofList [c] ++ b.sql }
  | .parameter chars :: rest =>
    let name := String.ofList chars
    match rank? name seen with
    | some i => do
      let b ← resolve d params seen rest
      return { b with sql := d.positional (i + 1) ++ b.sql }
    | none =>
      match params.get? name with
      | none => .error (.configuration (.unboundParameter name))
      | some v => do
        let b ← resolve d params (seen ++ [(name, v)]) rest
        return { b with sql := d.positional (seen.length + 1) ++ b.sql }

end Binding

/-- Positional form and values. A placeholder without a value is an error. -/
def Statement.bind (s : Statement) (d : Dialect) : Except Error Bound :=
  Binding.resolve d s.params [] (Binding.tokens s.sql)

end Reports.Sql
