import Reports.Sql.Count
import Mathlib.Data.List.Dedup

/-! What queries mean. The joined rows of a query are an abstract list that its common tables, its
source, its joins and WHERE decide. Grouping, HAVING, the select list, DISTINCT and paging then act
on that list in the order of SQL. -/
namespace Reports.Sql

/-- What decides the joined rows of a query. -/
structure Scope where
  tablePrefix : String
  commonTables : OrderedMap String Statement
  source : Source
  joins : OrderedMap String Join
  predicates : List Predicate
  rawWhere : List Statement

def Query.scope (q : Query) : Scope :=
  ⟨q.tablePrefix, q.commonTables, q.source, q.joins, q.predicates, q.rawWhere⟩

def Scope.ofDerived (tablePrefix : String) (inner : Query) (correlation : String) : Scope :=
  ⟨tablePrefix, ∅, .derived inner.toClauses inner.source correlation, ∅, [], []⟩

/-- The select list as column names and expressions, the identity of the row first. -/
def Clauses.outputColumns (c : Clauses) : List (String × String) :=
  ((c.selects.get? uniqueId).map fun expr => (uniqueId, expr)).toList ++
    c.selects.entries.filter fun e => decide (e.1 ≠ uniqueId)

def Clauses.paged {α : Type} (c : Clauses) (rows : List α) : List α :=
  let rest := rows.drop c.offset.toNat
  if c.limit = 0 then rest else rest.take c.limit.toNat

def Query.unpaged (q : Query) : Query := (q.setOffset 0).setLimit 0

abbrev OutputRow (ν : Type) := List (String × ν)

/-- How expressions are read, over joined rows `ρ` and values `ν`. An expression is read for one
output row, from the joined rows that stand behind it. -/
structure Reading (ρ ν : Type) where
  value : String → List ρ → ν
  null : ν
  keeps : List Statement → List ρ → Bool
  everything : List ρ → OutputRow ν
  derivedRow : String → OutputRow ν → ρ

namespace Reading

variable {ρ ν : Type} [DecidableEq ν] (m : Reading ρ ν)

def groupKey (c : Clauses) (r : ρ) : List ν := c.groupBy.map fun expr => m.value expr [r]

/-- The joined rows behind each output row. Without GROUP BY that is one joined row each, or, for
HAVING, all of them. -/
def groups (c : Clauses) (rows : List ρ) : List (List ρ) :=
  if c.groupBy.isEmpty then
    if c.rawHaving.isEmpty then rows.map fun r => [r] else [rows]
  else (rows.map (m.groupKey c)).dedup.map fun k => rows.filter fun r => m.groupKey c r = k

def keptGroups (c : Clauses) (rows : List ρ) : List (List ρ) :=
  if c.rawHaving.isEmpty then m.groups c rows else (m.groups c rows).filter (m.keeps c.rawHaving)

def cells (c : Clauses) (group : List ρ) : OutputRow ν :=
  if c.selects.isEmpty then m.everything group
  else c.outputColumns.map fun e => (e.1, m.value e.2 group)

def output (c : Clauses) (rows : List ρ) : List (OutputRow ν) :=
  let selected := (m.keptGroups c rows).map (m.cells c)
  c.paged (if c.emitsDistinct then selected.dedup else selected)

end Reading

/-- A reading with the joined rows of every scope. The two laws say what a derived table is: its
rows are those that the inner query returns, and its columns are read under its name. -/
structure Interpretation (ρ ν : Type) [DecidableEq ν] extends Reading ρ ν where
  joined : Scope → List ρ
  joined_derived : ∀ tablePrefix (inner : Query) correlation,
    joined (.ofDerived tablePrefix inner correlation) =
      (toReading.output inner.toClauses (joined inner.scope)).map (derivedRow correlation)
  value_derived : ∀ (correlation column : String) row v,
    Text.isName correlation.toList → Text.isName column.toList →
      OrderedMap.lookup column row = some v →
        value (correlation ++ "." ++ column) [derivedRow correlation row] = v

/-- How many different values there are, null left out. -/
def distinctValues {ν : Type} [DecidableEq ν] (null : ν) (vs : List ν) : Nat :=
  (vs.filter fun v => decide (v ≠ null)).dedup.length

def distinctOperand? (expr : String) : Option String :=
  ((expr.toList.dropPrefix? "COUNT(DISTINCT ".toList).bind fun rest =>
    rest.dropSuffix? [')']).map String.ofList

namespace Interpretation

variable {ρ ν : Type} [DecidableEq ν] (i : Interpretation ρ ν)

def rows (q : Query) : List (OutputRow ν) := i.output q.toClauses (i.joined q.scope)

def countOver? (expr : String) (rows : List ρ) : Option Nat :=
  if expr = "COUNT(*)" then some rows.length
  else (distinctOperand? expr).map fun operand =>
    distinctValues i.null (rows.map fun r => i.value operand [r])

/-- The number in the only row of a statement that selects nothing but a count. Grouping would
make several rows of it, and an offset would drop it. -/
def number? (q : Query) : Option Nat :=
  if q.groupBy.isEmpty && q.rawHaving.isEmpty && q.offset == 0 then
    match q.selects.entries with
    | [(_, expr)] => i.countOver? expr (i.joined q.scope)
    | _ => none
  else none

end Interpretation

end Reports.Sql
