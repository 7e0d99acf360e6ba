import Reports.Sql.Predicate

/-! SELECT statements under construction. Selects, joins, common tables and orderings are keyed;
using a key again replaces what it stood for, in place. -/
namespace Reports.Sql

structure Join where
  table : String
  conditions : List String
  params : Params := ∅
  kind : JoinKind
  deriving Repr, Inhabited

/-- A join whose condition is blank has none. -/
def Join.new (table condition : String) (kind : JoinKind) : Join :=
  { table, kind,
    conditions := if (Text.trimChars condition.toList).isEmpty then [] else [condition] }

/-- Everything but what a query reads from. -/
structure Clauses where
  /-- Expressions by the name of their column. -/
  selects : OrderedMap String String := ∅
  joins : OrderedMap String Join := ∅
  commonTables : OrderedMap String Statement := ∅
  predicates : List Predicate := []
  rawWhere : List Statement := []
  rawHaving : List Statement := []
  groupBy : List String := []
  orderBy : OrderedMap String Direction := ∅
  offset : UInt64 := 0
  limit : UInt64 := 0
  distinct : Bool := true
  tablePrefix : String := ""

/-- What a query reads from: nothing yet, a table, or the rows of another query. -/
inductive Source
  | none
  | table (name correlation : String)
  | derived (clauses : Clauses) (source : Source) (correlation : String)

structure Query extends Clauses where
  source : Source := .none

def uniqueId : String := "unique_id"

namespace Source

/-- The name that the rest of the query gives to the source. -/
def correlation? : Source → Option String
  | none => Option.none
  | table _ c => some c
  | derived _ _ c => some c

end Source

namespace Query

def empty : Query := {}

instance : Inhabited Query := ⟨empty⟩

def withPrefix (tablePrefix : String) : Query := { empty with tablePrefix }

def setPrefix (q : Query) (tablePrefix : String) : Query := { q with tablePrefix }

def select (q : Query) (expr column : String) : Query :=
  { q with selects := q.selects.insert (if column.isEmpty then expr else column) expr }

def removeSelect (q : Query) (column : String) : Query :=
  { q with selects := q.selects.erase column }

def readFrom (q : Query) (table correlation : String) : Query :=
  { q with source := .table table correlation }

def readFromQuery (q inner : Query) (correlation : String) : Query :=
  { q with source := .derived inner.toClauses inner.source correlation }

def join (q : Query) (table correlation condition : String) (kind : JoinKind) : Query :=
  { q with joins := q.joins.insert correlation (Join.new table condition kind) }

def updateJoin (q : Query) (correlation : String) (f : Join → Join) : Except Error Query :=
  match q.joins.get? correlation with
  | some j => .ok { q with joins := q.joins.insert correlation (f j) }
  | none => .error (.missingJoinAlias correlation)

def joinCondition (q : Query) (correlation condition : String) : Except Error Query :=
  q.updateJoin correlation fun j => { j with conditions := j.conditions ++ [condition] }

def joinParams (q : Query) (correlation : String) (params : Params) : Except Error Query :=
  q.updateJoin correlation fun j => { j with params := j.params.merge params }

def filterBy (q : Query) (p : Predicate) : Query :=
  { q with predicates := q.predicates ++ [p] }

/-- Keeps rows whose selector is among the rows of a query. -/
def filterByQuery (q : Query) (selector sql : String) (params : Params) : Query :=
  q.filterBy ((Predicate.new selector [] .inQuery).setSubquery (.ofText sql params))

def whereRaw (q : Query) (condition : Statement) : Query :=
  { q with rawWhere := q.rawWhere ++ [condition] }

def havingRaw (q : Query) (condition : Statement) : Query :=
  { q with rawHaving := q.rawHaving ++ [condition] }

def order (q : Query) (expr : String) (direction : Direction) : Query :=
  { q with orderBy := q.orderBy.insert expr direction }

def orderText (q : Query) (expr direction : String) : Except Error Query :=
  match Direction.read? direction with
  | some dir => .ok (q.order expr dir)
  | none => .error (.invalidSortDirection direction)

def group (q : Query) (expr : String) : Query :=
  if q.groupBy.contains expr then q else { q with groupBy := q.groupBy ++ [expr] }

def setOffset (q : Query) (offset : UInt64) : Query := { q with offset }

def setLimit (q : Query) (limit : UInt64) : Query := { q with limit }

def setCommonTable (q : Query) (name : String) (body : Statement) : Query :=
  { q with commonTables := q.commonTables.insert name body }

def setDistinct (q : Query) (distinct : Bool) : Query := { q with distinct }

def getSelect? (q : Query) (column : String) : Option String := q.selects.get? column

def correlation? (q : Query) : Option String := q.source.correlation?

end Query

end Reports.Sql
