import Reports.Session
import Reports.Sql.Rendering
import Reports.Text.Scanner
import Reports.Text.Word
import Reports.Digest.Sha256

/-! Counting the rows of a query: the statement derived for it, a plainer one to fall back on when
that fails, and the memo of counts. -/
namespace Reports.Sql

namespace Count

def countedTable : String := "x"

def column : String := "total"

/-- Without paging and ordering; without grouping too, unless HAVING needs it. -/
def strip (q : Query) : Query :=
  { q with
    offset := 0, limit := 0, orderBy := ∅
    groupBy := if q.rawHaving.isEmpty then [] else q.groupBy }

def wrap (tablePrefix : String) (inner : Query) (expr : String) : Query :=
  (((Query.withPrefix tablePrefix).select expr column).readFromQuery inner countedTable).setDistinct
    false

/-- The expression that tells rows apart: the identity if selected, else the source's id. -/
def identityExpr (q : Query) : String :=
  match q.getSelect? uniqueId with
  | some expr => expr
  | none =>
    match q.correlation? with
    | some c => c ++ ".id"
    | none => "id"

def clearSelects (q : Query) : Query := { q with selects := ∅ }

/-- Counts distinct identities or rows. With common tables the count is taken at the top, so
that WITH stays there; HAVING forces a derived table, which then has its own WITH. -/
def derive (q : Query) (unique : Bool) : Query :=
  let inner := strip q
  if !q.commonTables.isEmpty && q.rawHaving.isEmpty then
    let expr := if unique then "COUNT(DISTINCT " ++ identityExpr q ++ ")" else "COUNT(*)"
    ((clearSelects inner).select expr column).setDistinct false
  else if unique then
    wrap q.tablePrefix ((clearSelects inner).select (identityExpr q) uniqueId)
      ("COUNT(DISTINCT " ++ countedTable ++ "." ++ uniqueId ++ ")")
  else wrap q.tablePrefix inner "COUNT(*)"

/-- The plain row count; with HAVING the groups are counted. -/
def fallback (q : Query) : Query :=
  let inner := strip q
  if q.rawHaving.isEmpty then ((clearSelects inner).select "COUNT(*)" column).setDistinct false
  else wrap q.tablePrefix inner "COUNT(*)"

end Count

namespace CountKey

inductive Token
  | char (c : Char)
  | drawn (name : List Char)
  deriving Repr, DecidableEq

inductive State
  | plain
  /-- A colon and these characters, last first, that may begin a drawn name. -/
  | held (acc : List Char)
  /-- The name so far, last character first: `qp` and at least one digit. -/
  | digits (acc : List Char)
  deriving Repr, DecidableEq

def stepPlain (c : Char) : List Token × State :=
  if c = ':' then ([], .held []) else ([.char c], .plain)

def release (acc : List Char) : List Token := .char ':' :: acc.reverse.map .char

/-- The scanner that finds placeholders with drawn names: a colon, `qp`, digits, and then no
further word character. -/
def scanner : Text.Scanner State Token where
  step
    | .plain, c => stepPlain c
    | .held acc, c =>
      match acc, c with
      | [], 'q' => ([], .held ['q'])
      | ['q'], 'p' => ([], .held ['p', 'q'])
      | ['p', 'q'], c =>
        if Text.isDecimalDigit c then ([], .digits [c, 'p', 'q'])
        else (release ['p', 'q'] ++ (stepPlain c).1, (stepPlain c).2)
      | acc, c => (release acc ++ (stepPlain c).1, (stepPlain c).2)
    | .digits acc, c =>
      if Text.isDecimalDigit c then ([], .digits (c :: acc))
      else if Text.isWordChar c then (release acc ++ (stepPlain c).1, (stepPlain c).2)
      else (.drawn acc.reverse :: (stepPlain c).1, (stepPlain c).2)
  finish
    | .plain => []
    | .held acc => release acc
    | .digits acc => [.drawn acc.reverse]

def tokens (sql : String) : List Token := scanner.run .plain sql.toList

def position? (name : String) : List String → Option Nat
  | [] => none
  | n :: rest => if n = name then some 0 else (position? name rest).map (· + 1)

/-- Renumbers the drawn names by first appearance. Gives the text and the names in order. -/
def renumber (seen : List String) : List Token → String × List String
  | [] => ("", seen)
  | .char c :: rest =>
    let (s, names) := renumber seen rest
    (String.ofList [c] ++ s, names)
  | .drawn chars :: rest =>
    let name := String.ofList chars
    match position? name seen with
    | some i =>
      let (s, names) := renumber seen rest
      (":_" ++ Text.decimal i ++ s, names)
    | none =>
      let (s, names) := renumber (seen ++ [name]) rest
      (":_" ++ Text.decimal seen.length ++ s, names)

/-- The text that identifies a statement, whichever placeholder names were drawn for it: the
renumbered SQL, the values of the drawn names in order, then all other parameters. -/
def identity (s : Statement) : String :=
  let (sql, names) := renumber [] (tokens s.sql)
  let drawn := names.map fun n => match s.params.get? n with
    | some v => "\x00" ++ v.text
    | none => "\x00"
  let others := (s.params.entries.filter fun e => !names.contains e.1).map
    fun e => "\x00" ++ e.1 ++ "=" ++ e.2.text
  sql ++ String.join drawn ++ String.join others

end CountKey

structure CountMemo where
  digest : String → String := Sha256.hexDigest
  counts : OrderedMap String UInt64 := ∅

namespace CountMemo

def empty : CountMemo := {}

def key (m : CountMemo) (s : Statement) : String := m.digest (CountKey.identity s)

def get? (m : CountMemo) (key : String) : Option UInt64 := m.counts.get? key

def insert (m : CountMemo) (key : String) (count : UInt64) : CountMemo :=
  { m with counts := m.counts.insert key count }

end CountMemo

/-- The count of a query's rows and the memo afterwards. Both counts are remembered under the
derived statement; when both fail, the first failure is reported. -/
def executeCount (st : Storage) (q : Query) (unique : Bool) (memo : CountMemo) :
    Action (UInt64 × CountMemo) := do
  let derived ← Session.draw ((Count.derive q unique).render st.dialect)
  let key := memo.key derived
  match memo.get? key with
  | some count =>
    Session.log (.countServed count)
    return (count, memo)
  | none =>
    match ← Session.attempt (st.fetchCount derived) with
    | .ok count => return (count, memo.insert key count)
    | .error failure =>
      Session.log (.countRetried failure)
      match ← Session.attempt (Session.draw ((Count.fallback q).render st.dialect)) with
      | .error _ => throw failure
      | .ok plain =>
        match ← Session.attempt (st.fetchCount plain) with
        | .ok count => return (count, memo.insert key count)
        | .error second =>
          Session.log (.fallbackCountFailed second)
          throw failure

end Reports.Sql
