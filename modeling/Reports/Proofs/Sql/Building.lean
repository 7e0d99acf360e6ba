import Reports.Proofs.OrderedMap.Edits
import Reports.Sql.Rendering

/-! Queries that are put together operation by operation. Columns, joins, common tables, orderings
and groupings stay apart by their keys whatever is done; each list can be read off the operations;
and the select list names every column once. -/
namespace Reports.Sql

open OrderedMap (Edit Edited? Recounts)

theorem Direction.read?_eq_none_iff (text : String) :
    Direction.read? text = none ↔ Text.lower (Text.trim text) ∉ ["asc", "desc"] := by
  rw [Direction.read?]
  generalize Text.lower (Text.trim text) = name
  unfold Direction.ofName?
  split <;> simp_all

namespace Query

inductive Operation
  | select (expr column : String)
  | removeSelect (column : String)
  | readFrom (table correlation : String)
  | readFromQuery (inner : Query) (correlation : String)
  | join (table correlation condition : String) (kind : JoinKind)
  | joinCondition (correlation condition : String)
  | joinParams (correlation : String) (params : Params)
  | filterBy (p : Predicate)
  | filterByQuery (selector sql : String) (params : Params)
  | whereRaw (condition : Statement)
  | havingRaw (condition : Statement)
  | orderText (expr direction : String)
  | order (expr : String) (direction : Direction)
  | group (expr : String)
  | setOffset (offset : UInt64)
  | setLimit (limit : UInt64)
  | setCommonTable (name : String) (body : Statement)
  | setDistinct (distinct : Bool)
  | setPrefix (tablePrefix : String)

namespace Operation

def run (q : Query) : Operation → Except Error Query
  | select expr column => .ok (q.select expr column)
  | removeSelect column => .ok (q.removeSelect column)
  | readFrom table correlation => .ok (q.readFrom table correlation)
  | readFromQuery inner correlation => .ok (q.readFromQuery inner correlation)
  | join table correlation condition kind => .ok (q.join table correlation condition kind)
  | joinCondition correlation condition => q.joinCondition correlation condition
  | joinParams correlation params => q.joinParams correlation params
  | filterBy p => .ok (q.filterBy p)
  | filterByQuery selector sql params => .ok (q.filterByQuery selector sql params)
  | whereRaw condition => .ok (q.whereRaw condition)
  | havingRaw condition => .ok (q.havingRaw condition)
  | orderText expr direction => q.orderText expr direction
  | order expr direction => .ok (q.order expr direction)
  | group expr => .ok (q.group expr)
  | setOffset offset => .ok (q.setOffset offset)
  | setLimit limit => .ok (q.setLimit limit)
  | setCommonTable name body => .ok (q.setCommonTable name body)
  | setDistinct distinct => .ok (q.setDistinct distinct)
  | setPrefix tablePrefix => .ok (q.setPrefix tablePrefix)

def selects? : Operation → Option (Edit String String)
  | select expr column => some (.write (if column = "" then expr else column) expr)
  | removeSelect column => some (.erase column)
  | _ => none

def joins? : Operation → Option (Edit String Join)
  | join table correlation condition kind => some (.write correlation (.new table condition kind))
  | joinCondition correlation condition =>
    some (.update correlation fun j => { j with conditions := j.conditions ++ [condition] })
  | joinParams correlation params =>
    some (.update correlation fun j => { j with params := j.params.merge params })
  | _ => none

def commonTables? : Operation → Option (Edit String Statement)
  | setCommonTable name body => some (.write name body)
  | _ => none

def orderBy? : Operation → Option (Edit String Direction)
  | order expr direction => some (.write expr direction)
  | orderText expr direction => (Direction.read? direction).map (.write expr)
  | _ => none

def groupBy? : Operation → Option String
  | group expr => some expr
  | _ => none

def source? : Operation → Option Source
  | readFrom table correlation => some (.table table correlation)
  | readFromQuery inner correlation => some (.derived inner.toClauses inner.source correlation)
  | _ => none

/-- The operations that fail, and why. -/
inductive Fails (q : Query) : Operation → Error → Prop
  | joinCondition {correlation : String} (missing : correlation ∉ q.joins.keys)
    (condition : String) :
      Fails q (.joinCondition correlation condition) (.missingJoinAlias correlation)
  | joinParams {correlation : String} (missing : correlation ∉ q.joins.keys) (params : Params) :
      Fails q (.joinParams correlation params) (.missingJoinAlias correlation)
  | orderText {direction : String} (unknown : Text.lower (Text.trim direction) ∉ ["asc", "desc"])
    (expr : String) :
      Fails q (.orderText expr direction) (.invalidSortDirection direction)

end Operation

/-- The query after an operation. An operation checks before it writes, so a refusal carries no
query and the query stays as it was. -/
def step (q : Query) (op : Operation) : Query := (op.run q).toOption.getD q

def after (q : Query) (ops : List Operation) : Query := ops.foldl step q

section Failures

variable {q : Query} {e : Error}

theorem updateJoin_eq_error_iff (c : String) (f : Join → Join) :
    q.updateJoin c f = .error e ↔ c ∉ q.joins.keys ∧ e = .missingJoinAlias c := by
  rw [updateJoin, ← OrderedMap.get?_eq_none_iff]
  cases q.joins.get? c with
  | none => simp [eq_comm]
  | some j => simp

theorem Operation.run_eq_error_iff (op : Operation) : op.run q = .error e ↔ op.Fails q e := by
  constructor
  · intro failed
    cases op with
    | joinCondition c text =>
      obtain ⟨missing, rfl⟩ := (updateJoin_eq_error_iff c _).mp failed
      exact .joinCondition missing text
    | joinParams c params =>
      obtain ⟨missing, rfl⟩ := (updateJoin_eq_error_iff c _).mp failed
      exact .joinParams missing params
    | orderText expr direction =>
      rw [run, Query.orderText] at failed
      split at failed
      · cases failed
      · next unknown =>
        cases failed
        exact .orderText ((Direction.read?_eq_none_iff direction).mp unknown) expr
    | _ => cases failed
  · intro fails
    cases fails with
    | joinCondition missing => exact (updateJoin_eq_error_iff _ _).mpr ⟨missing, rfl⟩
    | joinParams missing => exact (updateJoin_eq_error_iff _ _).mpr ⟨missing, rfl⟩
    | orderText unknown =>
      rw [run, Query.orderText, (Direction.read?_eq_none_iff _).mpr unknown]

theorem step_of_error {op : Operation} (failed : op.run q = .error e) : q.step op = q := by
  rw [step, failed]
  rfl

theorem after_of_error {start : Query} {ops : List Operation} {op : Operation}
    (failed : op.run (start.after ops) = .error e) (rest : List Operation) :
    start.after (ops ++ op :: rest) = start.after (ops ++ rest) := by
  have same : (ops.foldl step start).step op = ops.foldl step start := step_of_error failed
  rw [after, after, List.foldl_append, List.foldl_append, List.foldl_cons, same]

end Failures

/-- An operation makes at most one edit of each list. -/
structure Edits (q : Query) (op : Operation) (q' : Query) : Prop where
  selects : q'.selects = q.selects.edit? op.selects?
  joins : q'.joins = q.joins.edit? op.joins?
  commonTables : q'.commonTables = q.commonTables.edit? op.commonTables?
  orderBy : q'.orderBy = q.orderBy.edit? op.orderBy?
  groupBy : q'.groupBy = op.groupBy?.elim q.groupBy fun expr =>
    if expr ∈ q.groupBy then q.groupBy else q.groupBy ++ [expr]
  source : q'.source = op.source?.getD q.source

theorem getD_updateJoin (q : Query) (c : String) (f : Join → Join) :
    (q.updateJoin c f).toOption.getD q = { q with joins := q.joins.edit (.update c f) } := by
  rw [updateJoin, OrderedMap.edit]
  cases q.joins.get? c <;> rfl

theorem getD_orderText (q : Query) (expr direction : String) :
    (q.orderText expr direction).toOption.getD q =
    { q with orderBy := q.orderBy.edit? ((Direction.read? direction).map (.write expr)) } := by
  rw [orderText]
  cases Direction.read? direction <;> rfl

theorem edits_step (q : Query) (op : Operation) : q.Edits op (q.step op) := by
  cases op with
  | select expr column =>
    have named : q.step (.select expr column) =
        { q with selects := q.selects.insert (if column = "" then expr else column) expr } := by
      change q.select expr column = _
      simp only [select, String.isEmpty_iff]
    rw [named]
    exact ⟨rfl, rfl, rfl, rfl, rfl, rfl⟩
  | joinCondition c text =>
    rw [step, Operation.run, joinCondition, getD_updateJoin]
    exact ⟨rfl, rfl, rfl, rfl, rfl, rfl⟩
  | joinParams c params =>
    rw [step, Operation.run, joinParams, getD_updateJoin]
    exact ⟨rfl, rfl, rfl, rfl, rfl, rfl⟩
  | orderText expr direction =>
    rw [step, Operation.run, getD_orderText]
    -- The equation, because `rfl` would try to read the direction.
    exact ⟨rfl, rfl, rfl, by rw [Operation.orderBy?], rfl, rfl⟩
  | group expr =>
    have grouped : q.step (.group expr) =
        { q with groupBy := if expr ∈ q.groupBy then q.groupBy else q.groupBy ++ [expr] } := by
      change q.group expr = _
      rw [group]
      by_cases known : expr ∈ q.groupBy <;> simp [known]
    rw [grouped]
    exact ⟨rfl, rfl, rfl, rfl, rfl, rfl⟩
  | _ => exact ⟨rfl, rfl, rfl, rfl, rfl, rfl⟩

/-- What an operation can do to the lists: entries keep their places, and new ones go to the end. -/
structure Moves (q : Query) (op : Operation) (q' : Query) : Prop where
  selects : Edited? q.selects op.selects? q'.selects
  joins : Edited? q.joins op.joins? q'.joins
  commonTables : Edited? q.commonTables op.commonTables? q'.commonTables
  orderBy : Edited? q.orderBy op.orderBy? q'.orderBy
  groupBy : q'.groupBy = op.groupBy?.elim q.groupBy fun expr =>
    if expr ∈ q.groupBy then q.groupBy else q.groupBy ++ [expr]

theorem moves_step (q : Query) (op : Operation) : q.Moves op (q.step op) where
  selects := (q.edits_step op).selects ▸ OrderedMap.edited?_edit? _ _
  joins := (q.edits_step op).joins ▸ OrderedMap.edited?_edit? _ _
  commonTables := (q.edits_step op).commonTables ▸ OrderedMap.edited?_edit? _ _
  orderBy := (q.edits_step op).orderBy ▸ OrderedMap.edited?_edit? _ _
  groupBy := (q.edits_step op).groupBy

theorem selects_after (q : Query) (ops : List Operation) :
    (q.after ops).selects = q.selects.edited (ops.filterMap Operation.selects?) :=
  OrderedMap.edited_of_steps (fun q : Query => q.selects)
    (fun q op => (edits_step q op).selects) q ops

theorem entries_selectAgain (q : Query) {column expr : String} {others : List Operation}
    {op : Operation} (unselected : ∀ x ∈ others, ∀ w, x.selects? ≠ some (.write column w))
    (again : op.selects? = some (.write column expr)) :
    (((q.step (.removeSelect column)).after others).step op).selects.entries =
      ((q.step (.removeSelect column)).after others).selects.entries ++ [(column, expr)] := by
  have unwritten : ∀ e ∈ others.filterMap Operation.selects?, ∀ w, e ≠ .write column w := by
    rintro e mem w rfl
    obtain ⟨x, inside, written⟩ := List.mem_filterMap.mp mem
    exact unselected x inside w written
  rw [(edits_step _ op).selects, again, selects_after, (edits_step q _).selects]
  exact OrderedMap.entries_insertAgain q.selects column expr unwritten

end Query

/-- Keys stand for one entry each. -/
structure Clauses.Distinct (c : Clauses) : Prop where
  selects : c.selects.keys.Nodup
  joins : c.joins.keys.Nodup
  commonTables : c.commonTables.keys.Nodup
  orderBy : c.orderBy.keys.Nodup
  groupBy : c.groupBy.Nodup

def Source.Distinct : Source → Prop
  | .derived inner source _ => inner.Distinct ∧ source.Distinct
  | _ => True

/-- Keys stand for one entry each, in all that the query reads from, too. -/
structure Query.Distinct (q : Query) : Prop where
  clauses : q.toClauses.Distinct
  source : q.source.Distinct

namespace Query

/-- A query that has come by its lists through operations. -/
structure Told (ops : List Operation) (q : Query) : Prop where
  selects : Recounts (ops.filterMap Operation.selects?) q.selects
  joins : Recounts (ops.filterMap Operation.joins?) q.joins
  commonTables : Recounts (ops.filterMap Operation.commonTables?) q.commonTables
  orderBy : Recounts (ops.filterMap Operation.orderBy?) q.orderBy
  groupBy : q.groupBy = (ops.filterMap Operation.groupBy?).eraseDups

theorem groupBy_after (tablePrefix : String) (ops : List Operation) :
    ((withPrefix tablePrefix).after ops).groupBy =
    (ops.filterMap Operation.groupBy?).eraseDups := by
  induction ops using List.reverseRecOn with
  | nil => rfl
  | append_singleton ops op ih =>
    have last := (edits_step ((withPrefix tablePrefix).after ops) op).groupBy
    rw [ih] at last
    rw [after, List.foldl_concat, List.filterMap_append]
    refine last.trans ?_
    cases grouped : op.groupBy? with
    | none => rw [List.filterMap_cons_none grouped, List.filterMap_nil, List.append_nil]; rfl
    | some expr =>
      rw [List.filterMap_cons_some grouped, List.filterMap_nil, List.eraseDups_concat]
      simp only [Option.elim_some, List.mem_eraseDups]

theorem told_after (tablePrefix : String) (ops : List Operation) :
    Told ops ((withPrefix tablePrefix).after ops) where
  selects := OrderedMap.recounts_of_steps (fun q : Query => q.selects)
    (fun q op => (edits_step q op).selects) rfl ops
  joins := OrderedMap.recounts_of_steps (fun q : Query => q.joins)
    (fun q op => (edits_step q op).joins) rfl ops
  commonTables := OrderedMap.recounts_of_steps (fun q : Query => q.commonTables)
    (fun q op => (edits_step q op).commonTables) rfl ops
  orderBy := OrderedMap.recounts_of_steps (fun q : Query => q.orderBy)
    (fun q op => (edits_step q op).orderBy) rfl ops
  groupBy := groupBy_after tablePrefix ops

theorem Told.distinct {ops : List Operation} {q : Query} (told : Told ops q) :
    q.toClauses.Distinct where
  selects := told.selects.nodup
  joins := told.joins.nodup
  commonTables := told.commonTables.nodup
  orderBy := told.orderBy.nodup
  groupBy := told.groupBy ▸ List.nodup_eraseDups _

theorem source_after {q : Query} {ops : List Operation} (start : q.source.Distinct)
    (inner : ∀ r c, .readFromQuery r c ∈ ops → r.Distinct) :
    (q.after ops).source.Distinct := by
  induction ops generalizing q with
  | nil => exact start
  | cons op rest ih =>
    refine ih ?_ fun r c mem => inner r c (List.mem_cons_of_mem _ mem)
    rw [(q.edits_step op).source]
    cases op with
    | readFrom table c => trivial
    | readFromQuery r c =>
      obtain ⟨clauses, source⟩ := inner r c List.mem_cons_self
      exact ⟨clauses, source⟩
    | _ => exact start

end Query

def Clauses.columns (c : Clauses) : List (String × String) :=
  (c.selects.entries.filter fun e => decide (e.1 = uniqueId)) ++
    c.selects.entries.filter fun e => decide (e.1 ≠ uniqueId)

structure Clauses.Lists (c : Clauses) (columns : List (String × String)) : Prop where
  text : c.selectList = if columns = [] then "*" else
    Text.join ", " (columns.map fun e => (if e.1 = e.2 then "" else e.2 ++ " AS ") ++ e.1)
  entries : columns.Perm c.selects.entries
  once : (columns.map Prod.fst).Nodup
  identity : uniqueId ∈ c.selects.keys → (columns.map Prod.fst).head? = some uniqueId
  others : (columns.filter fun e => decide (e.1 ≠ uniqueId)) =
    c.selects.entries.filter fun e => decide (e.1 ≠ uniqueId)

theorem Clauses.column_eq (name expr : String) :
    column name expr = (if name = expr then "" else expr ++ " AS ") ++ name := by
  rw [column]
  split
  · next same => rw [same, String.empty_append]
  · rfl

namespace Clauses

theorem perm_columns (c : Clauses) : c.columns.Perm c.selects.entries := by
  simpa [columns] using List.filter_append_perm (fun e => decide (e.1 = uniqueId)) c.selects.entries

theorem columns_eq_nil_iff (c : Clauses) : c.columns = [] ↔ c.selects.isEmpty = true := by
  rw [OrderedMap.isEmpty, List.isEmpty_iff]
  exact ⟨fun none => List.nil_perm.mp (none ▸ c.perm_columns),
    fun none => List.perm_nil.mp (none ▸ c.perm_columns)⟩

section Distinct

variable {c : Clauses} (distinct : c.Distinct)

include distinct

theorem columns_eq : c.columns = ((c.selects.get? uniqueId).map (uniqueId, ·)).toList ++
    c.selects.entries.filter fun e => decide (e.1 ≠ uniqueId) := by
  rw [columns, OrderedMap.filter_key distinct.selects]

theorem selectList_eq : c.selectList = if c.columns = [] then "*" else
    Text.join ", " (c.columns.map fun e => column e.1 e.2) := by
  simp only [columns_eq_nil_iff]
  rw [selectList, columns_eq distinct, List.map_append]
  cases c.selects.get? uniqueId <;> rfl

theorem Distinct.lists : c.Lists c.columns where
  text := by
    rw [selectList_eq distinct]
    simp only [column_eq]
  entries := c.perm_columns
  once := (c.perm_columns.map Prod.fst).nodup_iff.mpr distinct.selects
  identity := by
    intro selected
    rw [columns_eq distinct]
    cases found : c.selects.get? uniqueId with
    | none => exact absurd selected ((OrderedMap.get?_eq_none_iff _ _).mp found)
    | some expr => rfl
  others := by
    rw [columns, List.filter_append, List.filter_filter, List.filter_filter]
    simp

end Distinct

end Clauses

namespace Query

/-- However a query is put together, all its keys are distinct, and its lists are what the
operations say: an operation leaves the entries of a list where they are, replaces the one that has
its key, and puts a new one at the end, also one that was removed before. The operations that fail
are those that need a join that is not there or a direction that is none, and they leave the query
as it was. The select list names each column once, the identity first and the others as they came
in. -/
theorem after_recounts (tablePrefix : String) (ops : List Operation) :
    let q := (withPrefix tablePrefix).after ops
    q.toClauses.Distinct ∧ ((∀ inner c, .readFromQuery inner c ∈ ops → inner.Distinct) →
      q.Distinct) ∧
    Told ops q ∧
    (∀ op, q.Moves op (q.step op)) ∧
    (∀ column expr others op,
      (∀ x ∈ others, ∀ w, Operation.selects? x ≠ some (.write column w)) →
      Operation.selects? op = some (.write column expr) →
      (((q.step (.removeSelect column)).after others).step op).selects.entries =
        ((q.step (.removeSelect column)).after others).selects.entries ++ [(column, expr)]) ∧
    (∀ (op : Operation) (e : Error), op.run q = .error e ↔ op.Fails q e) ∧
    (∀ (op : Operation) (e : Error), op.run q = .error e → q.step op = q ∧
      ∀ rest, (withPrefix tablePrefix).after (ops ++ op :: rest) =
        (withPrefix tablePrefix).after (ops ++ rest)) ∧
    ∃ columns, q.Lists columns := by
  intro q
  have told := told_after tablePrefix ops
  have distinct := told.distinct
  refine ⟨distinct, fun inner => ⟨distinct, source_after trivial inner⟩, told, q.moves_step,
    ?_, ?_, ?_, ?_⟩
  · exact fun column expr others op unselected again => q.entries_selectAgain unselected again
  · exact fun op e => op.run_eq_error_iff
  · exact fun op e failed => ⟨step_of_error failed, after_of_error failed⟩
  · exact ⟨_, distinct.lists⟩

def visits : Query :=
  (withPrefix "mdl_").after
    [.readFrom "visits" "v", .select "v.id" "id", .select "v.member" "id", .group "v.member",
      .group "v.member"]

/-- A column that is selected again under its name and one that is removed and selected again, a
join that is replaced by one without its condition, and two operations that fail. -/
def members : List Operation :=
  [.readFromQuery visits "u", .select "u.id" "id", .select "u.name" "", .select "u.email" uniqueId,
    .removeSelect "u.name", .select "u.member" "id", .select "u.name" "",
    .join "groups" "g" "g.owner = u.id" .left, .joinCondition "h" "h.open = 1",
    .join "groups" "g" " " .inner,
    .joinCondition "g" "g.open = 1", .orderText "u.name" " Desc ", .order "u.id" .asc,
    .orderText "u.id" "sideways", .order "u.name" .asc, .group "u.id", .group "u.name",
    .group "u.id"]

theorem after_recounts_members :
    let q := (withPrefix "mdl_").after members
    q.Distinct ∧
    q.selects.entries = [("id", "u.member"), (uniqueId, "u.email"), ("u.name", "u.name")] ∧
    q.selectList = "u.email AS unique_id, u.member AS id, u.name" ∧
    (∃ j, q.joins.entries = [("g", j)] ∧ j.kind = .inner ∧ j.conditions = ["g.open = 1"]) ∧
    q.orderBy.entries = [("u.name", .asc), ("u.id", .asc)] ∧ q.groupBy = ["u.id", "u.name"] ∧
    (Operation.joinCondition "h" "h.open = 1").run q = .error (.missingJoinAlias "h") ∧
    q.step (.joinCondition "h" "h.open = 1") = q ∧
    (((q.step (.removeSelect "id")).after [.select "u.phone" "phone"]).step
      (.select "u.id" "id")).selects.entries =
        [(uniqueId, "u.email"), ("u.name", "u.name"), ("phone", "u.phone"), ("id", "u.id")] := by
  obtain ⟨-, whole, told, -, again, fails, leaves, -⟩ := after_recounts "mdl_" members
  have inner : ∀ r c, .readFromQuery r c ∈ members → r.Distinct := by
    intro r c mem
    obtain ⟨rfl, -⟩ : r = visits ∧ c = "u" := by simpa [members] using mem
    exact (after_recounts "mdl_" _).2.1 fun r c mem => by simp at mem
  have missing : "h" ∉ ((withPrefix "mdl_").after members).joins.keys := by
    rw [told.joins.keys]
    decide +kernel
  have failed := (fails (.joinCondition "h" "h.open = 1") _).mpr (.joinCondition missing _)
  have unselected : ∀ x ∈ [Operation.select "u.phone" "phone"], ∀ w,
      x.selects? ≠ some (.write "id" w) := by
    simp [Operation.selects?]
  have last := again "id" "u.id" _ (.select "u.id" "id") unselected rfl
  refine ⟨whole inner, ?_, ?_, ⟨_, rfl, rfl, rfl⟩, ?_, ?_, failed, (leaves _ _ failed).1,
    last.trans ?_⟩
  · decide +kernel
  · decide +kernel
  · decide +kernel
  · decide +kernel
  · decide +kernel

end Query

end Reports.Sql
