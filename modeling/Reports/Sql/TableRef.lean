import Reports.Text.Scanner
import Reports.Text.Basic

/-! References to tables: a name in braces stands for the physical table of that name. Quoted
literals and identifiers are left alone; a quote that is not closed runs to the end. -/
namespace Reports.Sql.TableRef

inductive State
  | plain
  /-- After an opening brace and these characters of a name, last first. -/
  | braced (name : List Char)
  | quoted (quote : Char)
  deriving Repr, DecidableEq

def isQuote (c : Char) : Bool := c == '\x27' || c == '\x22'

def stepPlain (c : Char) : List Char × State :=
  if c = '\x7b' then ([], .braced [])
  else if isQuote c then ([c], .quoted c)
  else ([c], .plain)

/-- What a reference that turned out to be none has held back. -/
def held (name : List Char) : List Char := '\x7b' :: name.reverse

def continues (name : List Char) (c : Char) : Bool :=
  if name.isEmpty then Text.isNameStart c else Text.isNameChar c

def scanner (table : String → String) : Text.Scanner State Char where
  step
    | .quoted q, c => ([c], if c = q then .plain else .quoted q)
    | .braced name, c =>
      if c = '\x7d' ∧ name ≠ [] then ((table (String.ofList name.reverse)).toList, .plain)
      else if continues name c then ([], .braced (c :: name))
      else (held name ++ (stepPlain c).1, (stepPlain c).2)
    | .plain, c => stepPlain c
  finish
    | .braced name => held name
    | _ => []

def expandWith (table : String → String) (sql : String) : String :=
  String.ofList ((scanner table).run .plain sql.toList)

def expand (sql tablePrefix : String) : String := expandWith (tablePrefix ++ ·) sql

end Reports.Sql.TableRef
