import Reports.Proofs.Sql.Building
import Reports.Proofs.Sql.Conjoined
import Reports.Proofs.Sql.Tidy

/-! Conditions of joins. A join keeps the condition that it was made with and those that are added
to it, until a join of the same correlation takes its place; its ON has ANDs between them. -/
namespace Reports.Sql

open Precedence (Item Holds holds alternatives spans)
open TableRef (Closed expandWith)

/-- What can be done to the joins of a query. -/
inductive JoinCall
  | join (table correlation text : String) (kind : JoinKind)
  | condition (correlation text : String)
  | params (correlation : String) (values : Params)

namespace JoinCall

def run (q : Query) : JoinCall → Except Error Query
  | .join table correlation text kind => .ok (q.join table correlation text kind)
  | .condition correlation text => q.joinCondition correlation text
  | .params correlation values => q.joinParams correlation values

def needs? : JoinCall → Option String
  | .join .. => none
  | .condition correlation _ => some correlation
  | .params correlation _ => some correlation

def replaces (correlation : String) : JoinCall → Bool
  | .join _ other _ _ => other == correlation
  | _ => false

def added (correlation : String) : JoinCall → List String
  | .condition other text => if other = correlation then [text] else []
  | _ => []

end JoinCall

/-- A query after calls. One that fails leaves it as it is. -/
def Query.perform (q : Query) : List JoinCall → Query
  | [] => q
  | call :: rest => ((call.run q).toOption.getD q).perform rest

section Calls

variable {q : Query} {call : JoinCall} {x : String} {j : Join}

theorem JoinCall.run_eq_error_iff (q : Query) (call : JoinCall) (e : Error) :
    call.run q = .error e ↔
      ∃ c, call.needs? = some c ∧ q.joins.contains c = false ∧ e = .missingJoinAlias c := by
  have update (c : String) (f : Join → Join) : q.updateJoin c f = .error e ↔
      q.joins.contains c = false ∧ e = .missingJoinAlias c := by
    rw [Query.updateJoin_eq_error_iff, ← OrderedMap.get?_eq_none_iff, OrderedMap.contains]
    simp
  cases call with
  | join => simp [run, needs?]
  | condition c text => simpa [run, needs?, Query.joinCondition] using update c _
  | params c values => simpa [run, needs?, Query.joinParams] using update c _

theorem Query.get?_updateJoin (found : q.joins.get? x = some j) (c : String) (f : Join → Join) :
    ((q.updateJoin c f).toOption.getD q).joins.get? x = some (if c = x then f j else j) := by
  rw [Query.getD_updateJoin]
  exact OrderedMap.get?_edit rfl found

theorem JoinCall.get?_run (stays : call.replaces x = false) (found : q.joins.get? x = some j) :
    ∃ params, ((call.run q).toOption.getD q).joins.get? x =
      some { j with conditions := j.conditions ++ call.added x, params } := by
  cases call with
  | join table c text kind =>
    have other : c ≠ x := by simpa [replaces] using stays
    exact ⟨j.params, by simp [run, added, Except.toOption, Query.join, other, found]⟩
  | condition c text =>
    refine ⟨j.params, (Query.get?_updateJoin found c _).trans ?_⟩
    rw [added]
    split <;> simp
  | params c values =>
    refine ⟨if c = x then j.params.merge values else j.params,
      (Query.get?_updateJoin found c _).trans ?_⟩
    split <;> simp [added]

theorem Query.get?_perform {calls : List JoinCall}
    (stays : ∀ call ∈ calls, call.replaces x = false) (found : q.joins.get? x = some j) :
    ∃ params, (q.perform calls).joins.get? x =
      some { j with conditions := j.conditions ++ calls.flatMap (JoinCall.added x), params } := by
  induction calls generalizing q j with
  | nil => exact ⟨j.params, by simpa [perform] using found⟩
  | cons call rest ih =>
    obtain ⟨here, later⟩ := List.forall_mem_cons.mp stays
    obtain ⟨params, step⟩ := JoinCall.get?_run here found
    obtain ⟨params', whole⟩ := ih later step
    exact ⟨params', by simpa [perform] using whole⟩

end Calls

def Join.on (j : Join) : String :=
  if j.conditions.isEmpty then "1=1" else Text.join " AND " j.conditions

variable {table : String → String} {d : Dialect}

/-- What the ON of a join demands of rows, given what "1=1" and its conditions say. -/
structure Join.Demands (table : String → String) (j : Join) : Prop where
  reads : ∃ is, Reads table j.on is
  truth : j.conditions ≠ [] → ∀ atomic, Holds atomic (expandWith table j.on) ↔
    ∃ run ∈ spans (j.conditions.map fun t => alternatives (itemsOf table t)),
      ∀ a ∈ run, holds atomic a = true
  admits : ∀ atomic, Holds atomic "1=1" →
    (∀ t ∈ j.conditions, Holds atomic (expandWith table t)) →
    Holds atomic (expandWith table j.on)
  conjunction : j.conditions.length ≤ 1 ∨ (∀ t ∈ j.conditions, ReadsTight table t) →
    ∀ atomic, Holds atomic "1=1" →
      (Holds atomic (expandWith table j.on) ↔
        ∀ t ∈ j.conditions, Holds atomic (expandWith table t))

theorem Join.demands {j : Join} (readable : ∀ t ∈ j.conditions, ∃ is, Reads table t is) :
    j.Demands table := by
  have fixed : expandWith table "1=1" = "1=1" := TableRef.expandWith_of_braceless (by decide)
  by_cases none : j.conditions = []
  · have on : j.on = "1=1" := by rw [Join.on, none]; rfl
    constructor
    · rw [on]
      exact exists_reads (by decide +kernel)
    · exact fun some => absurd none some
    · intro atomic always _
      rwa [on, fixed]
    · intro _ atomic always
      rw [on, fixed, none]
      simpa using always
  · have on : j.on = Text.join " AND " j.conditions := by
      rw [Join.on, if_neg (by simpa using none)]
    have joined := conjoins_join none readable
    rw [← on] at joined
    constructor
    · exact joined.reads
    · exact fun _ => joined.truth
    · exact fun atomic _ => joined.admits atomic
    · intro plain atomic _
      refine joined.conjunction (plain.imp_left fun short => ?_) atomic
      have some : 0 < j.conditions.length := List.length_pos_iff.mpr none
      omega

theorem entries_of_lookup {es : List (String × Join)} {x : String} {j : Join}
    (found : OrderedMap.lookup x es = some j) :
    es = es.takeWhile (fun e => e.1 ≠ x) ++ (x, j) :: (es.dropWhile fun e => e.1 ≠ x).tail := by
  induction es with
  | nil => cases found
  | cons e rest ih =>
    obtain ⟨k, v⟩ := e
    by_cases here : k = x
    · subst here
      simpa [OrderedMap.lookup] using found
    · rw [OrderedMap.lookup, if_neg here] at found
      simpa [here] using ih found

namespace Clauses

variable {c : Clauses} {source x : String} {j : Join} {n m : Nat}

def joinTexts (c : Clauses) (es : List (String × Join)) : String :=
  String.join (es.map fun e => " " ++ c.joinSql e.1 e.2)

def beforeOn (c : Clauses) (source x : String) (j : Join) : String :=
  c.head ++ source ++ c.joinTexts (c.joins.entries.takeWhile fun e => e.1 ≠ x) ++
    (" " ++ j.kind.sql ++ " " ++ c.tableRef j.table ++ " " ++ x ++ " ON")

def behindJoins (c : Clauses) (d : Dialect) (body : Option Statement) : String :=
  whereText body ++ c.groupSql ++ c.havingSql ++ (c.orderSql ++ c.limitSql d)

def behindOn (c : Clauses) (d : Dialect) (x : String) (body : Option Statement) : String :=
  c.joinTexts (c.joins.entries.dropWhile fun e => e.1 ≠ x).tail ++ c.behindJoins d body

theorem apart_joinTexts (c : Clauses) (es : List (String × Join)) : Apart (c.joinTexts es) := by
  cases es with
  | nil => exact .inl rfl
  | cons e rest =>
    refine .inr ⟨c.joinSql e.1 e.2 ++ c.joinTexts rest, ?_⟩
    rw [joinTexts, List.map_cons, String.join_cons, String.append_assoc]
    rfl

theorem apart_whereText (body : Option Statement) : Apart (whereText body) := by
  cases body with
  | none => exact .inl rfl
  | some b => exact .inr ⟨"WHERE " ++ b.sql, by simp [whereText, ← String.toList_inj]⟩

theorem apart_behindJoins (c : Clauses) (d : Dialect) (body : Option Statement) :
    Apart (c.behindJoins d body) :=
  (((apart_whereText body).append c.apart_groupSql).append c.apart_havingSql).append
    (c.apart_orderSql.append (c.apart_limitSql d))

theorem text_on (found : c.joins.get? x = some j) (d : Dialect) (source : String)
    (body : Option Statement) : c.text d source (whereText body) =
      c.beforeOn source x j ++ " " ++ j.on ++ c.behindOn d x body := by
  have joins : c.joinsSql = c.joinTexts (c.joins.entries.takeWhile fun e => e.1 ≠ x) ++
      (" " ++ j.kind.sql ++ " " ++ c.tableRef j.table ++ " " ++ x ++ " ON") ++ " " ++ j.on ++
        c.joinTexts (c.joins.entries.dropWhile fun e => e.1 ≠ x).tail := by
    have clause : " " ++ c.joinSql x j =
        " " ++ j.kind.sql ++ " " ++ c.tableRef j.table ++ " " ++ x ++ " ON" ++ " " ++ j.on := by
      simp [joinSql, Join.on, ← String.toList_inj]
    have split := congrArg c.joinTexts (entries_of_lookup found)
    rw [joinTexts, joinTexts, List.map_append, List.map_cons, String.join_append, String.join_cons,
      clause] at split
    simpa only [joinsSql, joinTexts, String.append_assoc] using split
  simp only [text, beforeOn, behindOn, behindJoins, head, joins, String.append_assoc]

end Clauses

theorem Query.render_on {q : Query} {x : String} {j : Join} (found : q.joins.get? x = some j)
    (closed : Closed j.on.toList) {n m : Nat} {s : Statement}
    (rendered : q.render d n = (.ok s, m)) :
    ∃ source k body, q.sourceStatement d q.source n = (.ok source, k) ∧
      q.whereBody d k = (.ok body, m) ∧
      (Closed (q.beforeOn source.sql x j).toList →
        s.sql = q.expandRefs (q.beforeOn source.sql x j) ++ " " ++ q.expandRefs j.on ++
          q.expandRefs (q.behindOn d x body)) := by
  rw [Query.render, Clauses.renderOver_eq] at rendered
  obtain ⟨source, k, given, assembled⟩ := Effect.of_bind_ok rendered
  obtain ⟨body, condition, text⟩ := Clauses.of_assemble assembled
  refine ⟨source, k, body, given, condition, fun before => ?_⟩
  have upTo : Closed (q.beforeOn source.sql x j ++ " " ++ j.on).toList :=
    (TableRef.closed_blank before).mpr closed
  have behind : Clauses.Apart (q.behindOn d x body) :=
    (q.apart_joinTexts _).append (q.apart_behindJoins d body)
  rw [text, Clauses.text_on found, Clauses.expandRefs,
    Clauses.expandWith_apart upTo behind, TableRef.expandWith_blank before]
  rfl

/-- The condition a join was made with and those added since stand behind its ON in the statement,
with ANDs between them: it demands no more than all of them, and just that if none has an OR outside
brackets. Without a join to add to, a call fails and the query stays. -/
theorem Query.render_on_conditions {q p : Query} {table x text : String} {kind : JoinKind}
    {calls : List JoinCall} (stays : ∀ call ∈ calls, call.replaces x = false)
    (same : p.joins = ((q.join table x text kind).perform calls).joins)
    (readable : ∀ t ∈ (Join.new table text kind).conditions ++ calls.flatMap (JoinCall.added x),
      ∃ is, Reads p.tableRef t is) {n m : Nat} {s : Statement}
    (rendered : p.render d n = (.ok s, m)) :
    (∃ j, p.joins.get? x = some j ∧ j.table = table ∧ j.kind = kind ∧
      j.conditions = (Join.new table text kind).conditions ++ calls.flatMap (JoinCall.added x) ∧
      j.Demands p.tableRef ∧
      ∃ source k body, p.sourceStatement d p.source n = (.ok source, k) ∧
        p.whereBody d k = (.ok body, m) ∧
        (Closed (p.beforeOn source.sql x j).toList →
          s.sql = p.expandRefs (p.beforeOn source.sql x j) ++ " " ++ p.expandRefs j.on ++
            p.expandRefs (p.behindOn d x body))) ∧
      ∀ (r : Query) call c, call.needs? = some c → r.joins.contains c = false →
        call.run r = .error (.missingJoinAlias c) ∧
          ∀ rest, r.perform (call :: rest) = r.perform rest := by
  constructor
  · have made : (q.join table x text kind).joins.get? x = some (Join.new table text kind) := by
      simp [Query.join]
    obtain ⟨params, found⟩ := Query.get?_perform stays made
    rw [← same] at found
    have demands := Join.demands (j := { Join.new table text kind with
      conditions :=
        (Join.new table text kind).conditions ++ calls.flatMap (JoinCall.added x), params })
      readable
    obtain ⟨is, reads⟩ := demands.reads
    exact ⟨_, found, rfl, rfl, rfl, demands, Query.render_on found reads.closed rendered⟩
  · intro r call c needs missing
    have failed := (JoinCall.run_eq_error_iff r call _).mpr ⟨c, needs, missing, rfl⟩
    refine ⟨failed, fun rest => ?_⟩
    rw [Query.perform, failed]
    rfl

def eitherKey : Query :=
  (Query.empty.readFrom "t" "t").join "u" "u" "u.id = t.id OR u.alt = t.id" .inner

def notDeleted : List JoinCall := [.condition "w" "w.seen = 1", .condition "u" "u.deleted = 0"]

def firstKey : List Item → Bool
  | .plain (.word w) :: _ => w == "u.id".toList
  | _ => false

theorem Query.render_on_conditions_notDeleted : ∃ j s,
    (eitherKey.perform notDeleted).render .sqlite 0 = (.ok s, 0) ∧
    s.sql =
      "SELECT DISTINCT * FROM t t JOIN u u ON u.id = t.id OR u.alt = t.id AND u.deleted = 0" ∧
    (eitherKey.perform notDeleted).joins.get? "u" = some j ∧
    j.conditions = ["u.id = t.id OR u.alt = t.id", "u.deleted = 0"] ∧
    j.Demands (eitherKey.perform notDeleted).tableRef ∧
    Holds firstKey ((eitherKey.perform notDeleted).expandRefs j.on) ∧
    ¬Holds firstKey ((eitherKey.perform notDeleted).expandRefs "u.deleted = 0") ∧
    (JoinCall.condition "w" "w.seen = 1").run eitherKey = .error (.missingJoinAlias "w") := by
  have stays : ∀ call ∈ notDeleted, call.replaces "u" = false := by decide
  have given : (Join.new "u" "u.id = t.id OR u.alt = t.id" .inner).conditions ++
      notDeleted.flatMap (JoinCall.added "u") =
        ["u.id = t.id OR u.alt = t.id", "u.deleted = 0"] := by decide +kernel
  have readable : ∀ t ∈ (Join.new "u" "u.id = t.id OR u.alt = t.id" .inner).conditions ++
      notDeleted.flatMap (JoinCall.added "u"),
      ∃ is, Reads (eitherKey.perform notDeleted).tableRef t is := by
    rw [given, List.forall_mem_cons, List.forall_mem_singleton]
    exact ⟨exists_reads (by decide +kernel), exists_reads (by decide +kernel)⟩
  obtain ⟨⟨j, found, -, -, conditions, demands, -⟩, missing⟩ :=
    Query.render_on_conditions (q := Query.empty.readFrom "t" "t")
      (p := eitherKey.perform notDeleted)
      (n := 0) (d := .sqlite) stays rfl readable rfl
  have on : j.on = "u.id = t.id OR u.alt = t.id AND u.deleted = 0" := by
    rw [Join.on, conditions, given]
    decide +kernel
  obtain ⟨is, reads⟩ := demands.reads
  obtain ⟨js, deleted⟩ := readable "u.deleted = 0" (by rw [given]; decide)
  refine ⟨j, _, rfl, by decide +kernel, found, conditions.trans given, demands, ?_, ?_,
    (missing eitherKey _ "w" rfl (by decide +kernel)).1⟩
  · rw [Query.expandRefs, Clauses.expandRefs, reads.holds_itemsOf, on]
    decide +kernel
  · rw [Query.expandRefs, Clauses.expandRefs, deleted.holds_itemsOf]
    decide +kernel

end Reports.Sql
