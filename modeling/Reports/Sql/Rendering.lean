import Reports.Sql.Query
import Reports.Sql.TableRef

/-! The text of a query, with its parameters in the order in which the clauses hold them. -/
namespace Reports.Sql

namespace Clauses

def isSingleCount (c : Clauses) : Bool :=
  match c.selects.entries with
  | [(_, expr)] =>
    "COUNT(".toList.isPrefixOf ((Text.trimStart expr.toList).map Text.upperChar)
  | _ => false

/-- Rows that have an identity, and counts, are not made distinct. -/
def emitsDistinct (c : Clauses) : Bool :=
  c.distinct && !c.selects.contains uniqueId && !c.isSingleCount

/-- The name of a table in the statement: common tables have no prefix. -/
def tableRef (c : Clauses) (table : String) : String :=
  if c.commonTables.contains table then table else c.tablePrefix ++ table

def expandRefs (c : Clauses) (sql : String) : String := TableRef.expandWith c.tableRef sql

def column (name expr : String) : String := if name = expr then expr else expr ++ " AS " ++ name

/-- The select list, the identity of the row first. -/
def selectList (c : Clauses) : String :=
  if c.selects.isEmpty then "*"
  else
    let identity := match c.selects.get? uniqueId with
      | some expr => [column uniqueId expr]
      | none => []
    let others := (c.selects.entries.filter fun e => decide (e.1 ≠ uniqueId)).map
      fun e => column e.1 e.2
    Text.join ", " (identity ++ others)

def withClause (c : Clauses) : String :=
  if c.commonTables.isEmpty then ""
  else
    "WITH " ++ Text.join ", "
      (c.commonTables.entries.map fun e => e.1 ++ " AS (" ++ e.2.sql ++ ")") ++ " "

def joinSql (c : Clauses) (correlation : String) (j : Join) : String :=
  let condition := if j.conditions.isEmpty then "1=1" else Text.join " AND " j.conditions
  j.kind.sql ++ " " ++ c.tableRef j.table ++ " " ++ correlation ++ " ON " ++ condition

def joinsSql (c : Clauses) : String :=
  String.join (c.joins.entries.map fun e => " " ++ c.joinSql e.1 e.2)

/-- The fragments joined by the conjunctions of their predicates; the first one's does not
count. -/
def chain : List (Conjunction × String) → String
  | [] => ""
  | (_, s) :: rest => s ++ String.join (rest.map fun e => " " ++ e.1.sql ++ " " ++ e.2)

def hasOr (parts : List (Conjunction × String)) : Bool :=
  parts.tail.any fun e => e.1 == .or

/-- The conditions of WHERE: the predicates as one group, in parentheses when an OR is among
them, and each raw condition in parentheses. -/
def whereParts (parts : List (Conjunction × String)) (raw : List Statement) : List String :=
  let group := chain parts
  (if group.isEmpty then [] else [if hasOr parts then "(" ++ group ++ ")" else group]) ++
    raw.map fun r => "(" ++ r.sql ++ ")"

def mergeAll (params : Params) (parts : List Statement) : Params :=
  parts.foldl (fun acc s => acc.merge s.params) params

def renderPredicates (d : Dialect) : List Predicate → Draw (List (Conjunction × Statement))
  | [] => return []
  | p :: rest => do
    let s ← p.render d
    let ss ← renderPredicates d rest
    return (p.conjunction, s) :: ss

def whereBody (c : Clauses) (d : Dialect) : Draw (Option Statement) := do
  let rendered ← renderPredicates d c.predicates
  let parts := whereParts (rendered.map fun e => (e.1, e.2.sql)) c.rawWhere
  if parts.isEmpty then return none
  else
    return some ⟨Text.join " AND " parts,
      mergeAll (mergeAll ∅ (rendered.map Prod.snd)) c.rawWhere⟩

def groupSql (c : Clauses) : String :=
  if c.groupBy.isEmpty then "" else " GROUP BY " ++ Text.join ", " c.groupBy

def havingSql (c : Clauses) : String :=
  if c.rawHaving.isEmpty then ""
  else " HAVING " ++ Text.join " AND " (c.rawHaving.map fun r => "(" ++ r.sql ++ ")")

def orderSql (c : Clauses) : String :=
  if c.orderBy.isEmpty then ""
  else " ORDER BY " ++ Text.join ", " (c.orderBy.entries.map fun e => e.1 ++ " " ++ e.2.sql)

def limitSql (c : Clauses) (d : Dialect) : String :=
  let tail := d.limitOffset (if c.limit = 0 then none else some c.limit) c.offset
  if tail.isEmpty then "" else " " ++ tail

def text (c : Clauses) (d : Dialect) (source condition : String) : String :=
  c.withClause ++ "SELECT " ++ (if c.emitsDistinct then "DISTINCT " else "") ++ c.selectList ++
    " FROM " ++ source ++ c.joinsSql ++ condition ++ c.groupSql ++ c.havingSql ++ c.orderSql ++
    c.limitSql d

def assemble (c : Clauses) (d : Dialect) (source : Statement) : Draw Statement := do
  let condition ← c.whereBody d
  let before := (mergeAll ∅ (c.commonTables.values)).merge source.params
  let joined := c.joins.values.foldl (fun acc j => acc.merge j.params) before
  match condition with
  | none => return ⟨c.expandRefs (c.text d source.sql ""), mergeAll joined c.rawHaving⟩
  | some body =>
    return ⟨c.expandRefs (c.text d source.sql (" WHERE " ++ body.sql)),
      mergeAll (joined.merge body.params) c.rawHaving⟩

/-- Renders clauses over a source. A derived table is a finished statement in parentheses. -/
def renderOver (d : Dialect) (c : Clauses) : Source → Draw Statement
  | .none => throw (.configuration .noSource)
  | .table name correlation => c.assemble d ⟨c.tableRef name ++ " " ++ correlation, ∅⟩
  | .derived inner source correlation => do
    let s ← renderOver d inner source
    c.assemble d ⟨"(" ++ s.sql ++ ") " ++ correlation, s.params⟩

end Clauses

namespace Query

def emitsDistinct (q : Query) : Bool := q.toClauses.emitsDistinct

def selectList (q : Query) : String := q.toClauses.selectList

def expandRefs (q : Query) (sql : String) : String := q.toClauses.expandRefs sql

def render (q : Query) (d : Dialect) : Draw Statement := q.toClauses.renderOver d q.source

end Query

end Reports.Sql
