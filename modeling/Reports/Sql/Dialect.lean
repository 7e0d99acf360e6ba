import Reports.Sql.Template
import Reports.Text.Escape

/-! Where two kinds of database differ in what they read. -/
namespace Reports.Sql

inductive Dialect
  | sqlite
  | postgres
  deriving Repr, DecidableEq, Inhabited

namespace Dialect

def name : Dialect → String
  | sqlite => "sqlite"
  | postgres => "postgres"

def quoteIdentifier (ident : String) : String := Text.quoted '\x22' ident

def quoteString (text : String) : String := Text.quoted '\x27' text

/-- The placeholder for the value with this number, from 1. -/
def positional (d : Dialect) (index : Nat) : String :=
  match d with
  | sqlite => "?" ++ Text.decimal index
  | postgres => "$" ++ Text.decimal index

def castToText (d : Dialect) (expr : String) : String :=
  match d with
  | sqlite => "CAST(" ++ expr ++ " AS TEXT)"
  | postgres => "CAST(" ++ expr ++ " AS VARCHAR)"

def concat (parts : List String) : String := Text.join " || " parts

def likeKeyword : Dialect → String
  | sqlite => "LIKE"
  | postgres => "ILIKE"

/-- The end of a statement that cuts its rows; empty when nothing is cut. -/
def limitOffset (d : Dialect) (limit : Option UInt64) (offset : UInt64) : String :=
  match limit with
  | some n =>
    "LIMIT " ++ Text.decimal n.toNat ++
      if offset = 0 then "" else " OFFSET " ++ Text.decimal offset.toNat
  | none =>
    if offset = 0 then ""
    else match d with
      | sqlite => "LIMIT -1 OFFSET " ++ Text.decimal offset.toNat
      | postgres => "OFFSET " ++ Text.decimal offset.toNat

end Dialect

def listPieces : List Json → List Piece
  | [] => []
  | [v] => [.hole v]
  | v :: w :: rest => .hole v :: .text ", " :: listPieces (w :: rest)

/-- Membership in a list of values. A single value is a plain comparison. -/
def inOrEqual (selector : String) (values : List Json) (negate : Bool) : Template :=
  match values with
  | [v] => ⟨[.text (selector ++ (if negate then " <> " else " = ")), .hole v], ∅⟩
  | vs => ⟨.text (selector ++ (if negate then " NOT IN (" else " IN (")) :: listPieces vs ++
      [.text ")"], ∅⟩

end Reports.Sql
