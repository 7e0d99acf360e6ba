import Reports.Proofs.Filter.DateRange
import Reports.Proofs.Filter.Demand
import Reports.Proofs.Report.Assembly
import Reports.Proofs.Sql.Filling
import Mathlib.Data.List.Flatten

/-! What becomes of the filters of a collection in its two clauses. Every filter that contributes is
one fragment of its own clause, with parameters of its own that hold its own values. -/
namespace Reports

open Sql (Dialect Predicate Statement Template placeholderName substringPattern)
open Sql.Predicate (flatten)

namespace Sql

theorem Template.counter_fillPieces (n : Nat) (ps : List Piece) :
    (fillPieces n ps).2 = n + (holeValues ps).length := by
  induction ps generalizing n with
  | nil => rfl
  | cons p rest ih =>
    cases p with
    | text s => exact ih n
    | hole v =>
      change (fillPieces (n + 1) rest).2 = n + ((holeValues rest).length + 1)
      rw [ih]
      omega

def namesBetween (n m : Nat) : List String := (List.range' (n + 1) (m - n)).map placeholderName

theorem nodup_namesBetween (n m : Nat) : (namesBetween n m).Nodup :=
  List.Nodup.map (fun _ _ => placeholderName_injective) List.nodup_range'

theorem namesBetween_append {n k m : Nat} (first : n ≤ k) (later : k ≤ m) :
    namesBetween n k ++ namesBetween k m = namesBetween n m := by
  have joined := List.range'_append_1 (s := n + 1) (m := k - n) (n := m - k)
  rw [show n + 1 + (k - n) = k + 1 by omega, show k - n + (m - k) = m - n by omega] at joined
  rw [namesBetween, namesBetween, ← List.map_append, joined, namesBetween]

theorem Predicate.render_bare {p : Predicate} {d : Dialect} {n m : Nat} {s : Statement}
    (bare : ∀ t, p.template d = .ok t → t.params = ∅) (rendered : p.render d n = (.ok s, m)) :
    n ≤ m ∧ s.params.keys = namesBetween n m ∧ s.params.values = p.drawnValues d := by
  cases template : p.template d with
  | error e =>
    rw [render, template] at rendered
    cases rendered
  | ok t =>
    have filled := Template.fill_bare (bare t template) n
    simp only [render, template, filled] at rendered
    cases rendered
    have values := Predicate.holeValues_template template
    have counter := Template.counter_fillPieces n t.pieces
    refine ⟨by omega, ?_, ?_⟩
    · rw [Template.keys_fillPieces, Template.drawnNames, namesBetween, counter,
        Nat.add_sub_cancel_left]
    · rw [OrderedMap.values, Template.entries_fillPieces,
        List.map_snd_zip (Template.length_drawnNames n t.pieces).ge, values]

end Sql

namespace Filter

theorem Contribution.bare {f : Filter} {ctx : Context} {p : Predicate} {d : Dialect} {t : Template}
    (contribution : f.Contribution ctx p) (written : p.template d = .ok t) : t.params = ∅ := by
  rw [contribution.template_eq] at written
  have form := Predicate.base_form written
  generalize p.drawnValues d = vs at form
  cases form with
  | list negate => exact Template.params_inOrEqual _ _ _
  | comparison => rfl
  | pattern => rfl
  | subquery given =>
    cases contribution with
    | enrolments =>
      cases given
      rfl
    | _ => cases given
  | renderer given drawn =>
    obtain rfl := contribution.renderer_eq given
    cases drawn
    rfl

/-- A value, or something in its lists. -/
inductive Inside (v : Json) : Json → Prop
  | self : Inside v v
  | item {items : List Json} {w : Json} : Inside v (.array items) → w ∈ items → Inside v w

theorem Inside.trans {v u w : Json} (outer : Inside v u) (inner : Inside u w) : Inside v w := by
  induction inner with
  | self => exact outer
  | item _ mem ih => exact .item ih mem

theorem inside_of_mem_flatten {vs : List Json} {w : Json} (mem : w ∈ flatten vs) :
    ∃ v ∈ vs, Inside v w := by
  obtain ⟨v, inside, opened⟩ := List.mem_flatMap.mp mem
  refine ⟨v, inside, ?_⟩
  cases v with
  | array items => exact .item .self opened
  | _ =>
    obtain rfl := List.mem_singleton.mp opened
    exact .self

/-- What a filter compares with: its own value in effect, the options that this stands for or the
moment that it names; for a condition, what the context says. -/
inductive Compares (f : Filter) (ctx : Context) : Json → Prop
  | effective {v w : Json} : f.isCondition = false → f.effectiveValue? = some v → Inside v w →
    Compares f ctx w
  | option {s : Selection} {v w : Json} {o : Choice} : f.handler = .select s →
    f.effectiveValue? = some v → isAll v = true → o ∈ s.options → Inside o.value w →
    Compares f ctx w
  | moment {functions : List String} {name : String} {r : DateRange} {b : Sql.Operator × Int} :
    f.handler = .date functions → f.effectiveValue? = some (.string name) →
      DateRange.ofName? name = some r → r.bound? ctx.now = some b → Compares f ctx (.ofInt b.2)
  | user : f.handler = .condition .loggedInUser ∨ f.handler = .condition .enrolledCourses →
    Compares f ctx (.ofInt ctx.userId)
  | course {id : Int} : f.handler = .condition .currentCourse → ctx.courseId = some id →
    Compares f ctx (.ofInt id)
  | group {id : Int} : f.handler = .condition .myGroups → id ∈ ctx.groupIds →
    Compares f ctx (.ofInt id)

/-- What a filter binds: what it compares with, or the pattern that searches for it. -/
inductive Draws (f : Filter) (ctx : Context) : Json → Prop
  | value {v : Json} : f.Compares ctx v → Draws f ctx v
  | pattern {v : Json} : f.operator = .likeWildcard → f.Compares ctx v →
    Draws f ctx (.string (substringPattern v.plain))

theorem mem_drawnValues_new {selector : String} {vs : List Json} {op : Sql.Operator} {d : Dialect}
    {w : Json} (mem : w ∈ (Predicate.new selector vs op).drawnValues d) :
    ∃ v ∈ flatten vs, w = v ∨ op = .likeWildcard ∧
    w = .string (substringPattern v.plain) := by
  have first {ws : List Json} (mem : w ∈ ws.take 1) : w ∈ ws :=
    (List.take_sublist 1 ws).subset mem
  cases op with
  | inList => exact ⟨w, mem, .inl rfl⟩
  | notInList => exact ⟨w, mem, .inl rfl⟩
  | likeWildcard =>
    obtain ⟨v, inside, rfl⟩ := List.mem_map.mp mem
    exact ⟨v, (List.take_sublist 1 _).subset inside, .inr ⟨rfl, rfl⟩⟩
  | inQuery => cases mem
  | notInQuery => cases mem
  | custom => cases mem
  | unsupported name => cases mem
  | _ => exact ⟨w, first mem, .inl rfl⟩

theorem draws_new {f : Filter} {ctx : Context} {vs : List Json} {op : Sql.Operator} {d : Dialect}
    (operator : op = .likeWildcard → f.operator = .likeWildcard)
    (each : ∀ v ∈ flatten vs, f.Compares ctx v) :
    ∀ w ∈ (Predicate.new f.selector vs op).drawnValues d, f.Draws ctx w := by
  intro w mem
  obtain ⟨v, inside, rfl | ⟨wild, rfl⟩⟩ := mem_drawnValues_new mem
  · exact .value (each _ inside)
  · exact .pattern (operator wild) (each v inside)

theorem compares_flatten {f : Filter} {ctx : Context} (free : f.isCondition = false) {v : Json}
    (effective : f.effectiveValue? = some v) {vs : List Json} (inside : ∀ u ∈ vs, Inside v u) :
    ∀ w ∈ flatten vs, f.Compares ctx w := by
  intro w mem
  obtain ⟨u, here, within⟩ := inside_of_mem_flatten mem
  exact .effective free effective ((inside u here).trans within)

section

variable {f : Filter} {ctx : Context} {d : Dialect}

theorem draws_condition {k : Condition} (handler : f.handler = .condition k) :
    ∀ w ∈ (k.predicate f.selector ctx).drawnValues d, f.Draws ctx w := by
  cases k with
  | loggedInUser =>
    refine draws_new (by simp) fun w mem => ?_
    obtain rfl := List.mem_singleton.mp mem
    exact .user (.inl handler)
  | currentCourse =>
    unfold Condition.predicate
    cases course : ctx.courseId with
    | none =>
      intro w mem
      cases mem
    | some id =>
      refine draws_new (by simp) fun w mem => ?_
      obtain rfl := List.mem_singleton.mp mem
      exact .course handler course
  | myGroups =>
    unfold Condition.predicate
    dsimp only
    split
    · intro w mem
      cases mem
    · refine draws_new (by simp) fun w mem => ?_
      obtain ⟨v, here, within⟩ := List.mem_flatMap.mp mem
      obtain ⟨id, member, rfl⟩ := List.mem_map.mp here
      obtain rfl := List.mem_singleton.mp within
      exact .group handler member
  | enrolledCourses =>
    intro w mem
    obtain rfl := List.mem_singleton.mp mem
    exact .value (.user (.inr handler))

theorem draws_select {selection : Selection} {v : Json} {p : Predicate}
    (handler : f.handler = .select selection) (effective : f.effectiveValue? = some v)
    (given : selection.predicate? f.selector f.operator v = some p) :
    ∀ w ∈ p.drawnValues d, f.Draws ctx w := by
  have free : f.isCondition = false := by rw [isCondition, handler]; rfl
  unfold Selection.predicate? at given
  split at given
  · next all =>
    split at given
    · cases given
    · split at given <;> cases given
      · intro w mem
        cases mem
      · refine draws_new (by simp) fun w mem => ?_
        obtain ⟨u, here, within⟩ := inside_of_mem_flatten mem
        obtain ⟨o, member, rfl⟩ := List.mem_map.mp here
        exact .option handler effective all member within
  · split at given <;> cases given
    · next items =>
      exact draws_new (by simp) (compares_flatten free effective fun u mem => .item .self mem)
    · exact draws_new id (compares_flatten free effective (List.forall_mem_singleton.mpr .self))

theorem draws_date {functions : List String} {v : Option Json} {p : Predicate}
    (handler : f.handler = .date functions) (effective : f.effectiveValue? = v)
    (given : (Handler.date functions).predicate? f.selector f.operator v ctx = .ok (some p)) :
    ∀ w ∈ p.drawnValues d, f.Draws ctx w := by
  unfold Handler.predicate? at given
  dsimp only at given
  split at given
  · next name =>
    split at given
    · next r named =>
      split at given
      · next op timestamp bound =>
        cases given
        refine draws_new (fun wild => ?_) fun w mem => ?_
        · have operator := (DateRange.operator_eq bound).symm.trans wild
          cases r <;> cases operator
        · obtain rfl := List.mem_singleton.mp mem
          exact .moment handler effective named bound
      · cases given
    · cases given
  · cases given

theorem draws_of_predicate? {p : Predicate} (given : f.predicate? ctx = .ok (some p)) :
    ∀ w ∈ p.drawnValues d, f.Draws ctx w := by
  have value (free : f.isCondition = false) :
      (if f.isCondition then none else f.effectiveValue?) = f.effectiveValue? := by
    rw [free]
    rfl
  unfold predicate? at given
  cases handler : f.handler with
  | condition k =>
    rw [handler, Handler.predicate?] at given
    cases given
    exact draws_condition handler
  | select selection =>
    rw [value (by rw [isCondition, handler]; rfl), handler] at given
    obtain ⟨v, effective, given⟩ := Option.bind_eq_some_iff.mp (Except.ok.inj given)
    exact draws_select handler effective given
  | date functions =>
    rw [value (by rw [isCondition, handler]; rfl), handler] at given
    exact draws_date handler rfl given
  | value =>
    have free : f.isCondition = false := by rw [isCondition, handler]; rfl
    rw [value free, handler] at given
    obtain ⟨v, effective, rfl⟩ := Option.map_eq_some_iff.mp (Except.ok.inj given)
    exact draws_new id (compares_flatten free effective (List.forall_mem_singleton.mpr .self))
  | text =>
    have free : f.isCondition = false := by rw [isCondition, handler]; rfl
    rw [value free, handler] at given
    unfold Handler.predicate? at given
    dsimp only at given
    split at given
    · next s effective =>
      split at given <;> cases given
      exact draws_new id (compares_flatten free effective (List.forall_mem_singleton.mpr .self))
    · cases given

end

def contributes (ctx : Context) (f : Filter) : Bool :=
  match f.predicate? ctx with
  | .ok (some _) => true
  | _ => false

/-- The statement is what the filter contributes, rendered from some state of the counter. -/
def Writes (f : Filter) (ctx : Context) (d : Dialect) (s : Statement) : Prop :=
  ∃ p n m, f.predicate? ctx = .ok (some p) ∧ p.render d n = (.ok s, m)

def own (clause : Clause) (parts : List (Filter × Statement)) : List Statement :=
  (parts.filter fun e => e.1.clause == clause).map Prod.snd

/-- A clause joins fragments and has the parameters of each; without fragments it is trivial. -/
structure Conjoins (ss : List Statement) (x : ClauseSql) : Prop where
  sql : x.statement.sql = if ss.isEmpty then "1=1" else Text.join " AND " (ss.map (·.sql))
  entries : x.statement.params.entries = ss.flatMap (·.params.entries)
  trivial : x.isTrivial = true ↔ ss = []

theorem Conjoins.effect_eq {ss : List Statement} {x : ClauseSql} (conjoins : Conjoins ss x) :
    x.effect = if ss.isEmpty then [] else [x.statement] := by
  have trivially := conjoins.trivial
  rw [← List.isEmpty_iff] at trivially
  simp only [ClauseSql.effect, trivially]

theorem entries_foldl_merge {ss : List Statement} {acc : Params}
    (distinct : (acc.keys ++ ss.flatMap (·.params.keys)).Nodup) :
    (ss.foldl (fun acc s => acc.merge s.params) acc).entries =
      acc.entries ++ ss.flatMap (·.params.entries) := by
  induction ss generalizing acc with
  | nil => simp
  | cons s rest ih =>
    rw [List.flatMap_cons, ← List.append_assoc] at distinct
    have entries := OrderedMap.entries_merge_of_nodup (List.nodup_append.mp distinct).1
    have keys : (acc.merge s.params).keys = acc.keys ++ s.params.keys := by
      rw [OrderedMap.keys, entries, List.map_append]
      rfl
    rw [← keys] at distinct
    rw [List.foldl_cons, ih distinct, entries, List.flatMap_cons, List.append_assoc]

theorem conjoins_ofParts {ss : List Statement} (blank : ∀ s ∈ ss, ' ' ∈ s.sql.toList)
    (distinct : (ss.flatMap (·.params.keys)).Nodup) : Conjoins ss (.ofParts ss) := by
  by_cases none : ss = []
  · subst none
    exact ⟨rfl, rfl, by decide⟩
  · obtain ⟨sql, restricts⟩ := ofParts_of_blank none blank
    have some : ss.isEmpty = false := List.isEmpty_eq_false_iff.mpr none
    constructor
    · rw [sql, some]
      rfl
    · rw [ClauseSql.ofParts, some]
      have apart : ((∅ : Params).keys ++ ss.flatMap (·.params.keys)).Nodup := distinct
      exact (entries_foldl_merge apart).trans (List.nil_append _)
    · simp [restricts, none]

namespace Collection

theorem exists_parts {fs : List Filter} {ctx : Context} {d : Dialect} {n m : Nat}
    {fragments : List (Clause × Statement)}
    (rendered : renderFilters d ctx fs n = (.ok fragments, m)) :
    ∃ parts : List (Filter × Statement), fragments = parts.map (fun e => (e.1.clause, e.2)) ∧
      parts.map Prod.fst = fs.filter (contributes ctx) ∧
      (∀ e ∈ parts, e.1.Writes ctx d e.2) ∧ n ≤ m ∧
      (parts.flatMap fun e => e.2.params.keys) = Sql.namesBetween n m := by
  induction fs generalizing n fragments with
  | nil =>
    cases rendered
    exact ⟨[], rfl, rfl, fun e mem => (nomatch mem), Nat.le_refl m, by simp [Sql.namesBetween]⟩
  | cons f rest ih =>
    rcases renderFilters_cons rendered with ⟨given, later⟩ |
      ⟨p, s, k, ss, given, here, later, rfl⟩
    · obtain ⟨parts, same, all, written, names⟩ := ih later
      have silent : ¬ f.contributes ctx = true := by simp [contributes, given]
      exact ⟨parts, same, by rw [all, List.filter_cons_of_neg silent], written, names⟩
    · obtain ⟨parts, rfl, all, written, after, names⟩ := ih later
      -- It draws the next names, and the filters behind it go on from there.
      have contribution := contribution given
      obtain ⟨before, keys, -⟩ := Sql.Predicate.render_bare (fun t => contribution.bare) here
      have speaks : f.contributes ctx = true := by simp [contributes, given]
      refine ⟨(f, s) :: parts, rfl, ?_, ?_, before.trans after, ?_⟩
      · rw [List.map_cons, all, List.filter_cons_of_pos speaks]
      · exact List.forall_mem_cons.mpr ⟨⟨p, n, k, given, here⟩, written⟩
      · rw [List.flatMap_cons, keys, names, Sql.namesBetween_append before after]

theorem own_eq_partsOf (clause : Clause) (parts : List (Filter × Statement)) :
    partsOf clause (parts.map fun e => (e.1.clause, e.2)) = own clause parts := by
  rw [partsOf, own, List.filter_map, List.map_map]
  rfl

theorem own_eq_nil_iff {fs : List Filter} {ctx : Context} {parts : List (Filter × Statement)}
    (all : parts.map Prod.fst = fs.filter (contributes ctx)) (clause : Clause) :
    own clause parts = [] ↔ ∀ f ∈ fs, f.clause = clause → f.contributes ctx = false := by
  have member (f : Filter) : (∃ s, (f, s) ∈ parts) ↔
      f ∈ fs ∧ f.contributes ctx = true := by
    rw [← List.mem_filter, ← all]
    simp
  rw [own, List.map_eq_nil_iff, List.filter_eq_nil_iff]
  constructor
  · intro none f mem same
    by_contra speaks
    obtain ⟨s, inside⟩ := (member f).mpr ⟨mem, by simpa using speaks⟩
    exact none _ inside (by simp [same])
  · rintro none ⟨f, s⟩ inside same
    obtain ⟨mem, speaks⟩ := (member f).mp ⟨s, inside⟩
    rw [none f mem (by simpa using same)] at speaks
    cases speaks

/-- Rendered filters fall into two clauses. The filters that contribute are the fragments, in order
and each in its own clause; names are different throughout; a value belongs to the filter of its
fragment; and a clause is left out of the query of a report only if nothing contributes to it. -/
theorem render_parts {c : Collection} {d : Dialect} {n m : Nat} {x : CollectionSql}
    (rendered : c.render d n = (.ok x, m)) :
    ∃ parts : List (Filter × Statement),
      parts.map Prod.fst = c.filters.filter (contributes c.context) ∧
      (∀ e ∈ parts, e.1.Writes c.context d e.2 ∧
        ∀ v ∈ e.2.params.values, e.1.Draws c.context v) ∧
      Conjoins (own .whereClause parts) x.whereSql ∧
      Conjoins (own .havingClause parts) x.havingSql ∧
      (parts.flatMap fun e => e.2.params.keys).Nodup ∧
      (∀ clause, own clause parts = [] ↔
        ∀ f ∈ c.filters, f.clause = clause → f.contributes c.context = false) ∧
      ∀ (r : Request) s t q, r.filters = c → r.dialect = d → s.drawn = n →
        r.buildQuery s = (.ok q, t) → ∃ q₀, r.base = .ok q₀ ∧
          q.rawWhere = q₀.rawWhere ++
            (if (own .whereClause parts).isEmpty then [] else [x.whereSql.statement]) ∧
          q.rawHaving = q₀.rawHaving ++
            (if (own .havingClause parts).isEmpty then [] else [x.havingSql.statement]) := by
  obtain ⟨fragments, found, rfl⟩ := fragments_of_render rendered
  obtain ⟨parts, rfl, all, written, -, names⟩ := exists_parts found
  have distinct : (parts.flatMap fun e => e.2.params.keys).Nodup :=
    names ▸ Sql.nodup_namesBetween n m
  have blank : ∀ e ∈ parts, ' ' ∈ e.2.sql.toList := by
    intro e mem
    obtain ⟨p, k, k', given, rendered⟩ := written e mem
    exact (contribution given).blank rendered
  have clause (k : Clause) :
      Conjoins (own k parts) (.ofParts (partsOf k (parts.map fun e => (e.1.clause, e.2)))) := by
    have fewer : (own k parts).Sublist (parts.map Prod.snd) := List.filter_sublist.map Prod.snd
    rw [own_eq_partsOf]
    refine conjoins_ofParts (fun s mem => ?_) ?_
    · obtain ⟨e, inside, rfl⟩ := List.mem_map.mp (fewer.subset mem)
      exact blank e inside
    · have names := fewer.flatMap (·.params.keys)
      rw [List.flatMap_map] at names
      exact distinct.sublist names
  refine ⟨parts, all, ?_, clause .whereClause, clause .havingClause, distinct,
    own_eq_nil_iff all, ?_⟩
  · intro e mem
    obtain ⟨p, k, k', given, rendered⟩ := written e mem
    obtain ⟨-, -, values⟩ :=
      Sql.Predicate.render_bare (fun t => (contribution given).bare) rendered
    exact ⟨written e mem, values ▸ draws_of_predicate? given⟩
  · rintro r s t q rfl rfl rfl built
    obtain ⟨x, m', q₀, whole, filters, base, rfl, -⟩ := Request.render_of_buildQuery built
    cases filters.symm.trans rendered
    exact ⟨q₀, base, congrArg _ (clause .whereClause).effect_eq,
      congrArg _ (clause .havingClause).effect_eq⟩

def popular : Collection :=
  { identifier := "popular", context := { userId := 7 }
    filters :=
      [{ (Filter.new "name" "c.fullname").withHandler .text with raw := some (.string "law") },
       (Filter.new "start" "c.startdate").withHandler .everyDate,
       { (Filter.new "size" "COUNT(ue.id)").withOperator .greaterThan with
         clause := .havingClause, raw := some (.ofInt 10) },
       (Filter.new "enrolled" "c.id").withHandler (.condition .enrolledCourses)] }

theorem render_parts_popular :
    ∃ x m parts, popular.render .sqlite 5 = (.ok x, m) ∧
      parts.map (fun e : Filter × Statement => e.1.name) = ["name", "size", "enrolled"] ∧
      x.whereSql.statement.params.keys = ["qp6", "qp8"] ∧
      x.havingSql.statement.sql = "COUNT(ue.id) > :qp7" ∧
      Conjoins (own .whereClause parts) x.whereSql ∧
      Conjoins (own .havingClause parts) x.havingSql ∧
      (parts.flatMap fun e => e.2.params.keys).Nodup ∧
      ∀ e ∈ parts, ∀ v ∈ e.2.params.values, e.1.Draws popular.context v := by
  have seen : (popular.render .sqlite 5).1.toOption.map (fun x =>
      (x.whereSql.statement.params.keys, x.havingSql.statement.sql)) =
        some (["qp6", "qp8"], "COUNT(ue.id) > :qp7") := by
    decide +kernel
  have speaking : (popular.filters.filter (contributes popular.context)).map (·.name) =
      ["name", "size", "enrolled"] := by
    decide +kernel
  rcases rendered : popular.render .sqlite 5 with ⟨e | x, m⟩
  · rw [rendered] at seen
    cases seen
  · rw [rendered] at seen
    obtain ⟨names, having_⟩ := Prod.mk.inj (Option.some.inj seen)
    obtain ⟨parts, all, each, inWhere, inHaving, distinct, -, -⟩ := render_parts rendered
    refine ⟨x, m, parts, rfl, ?_, names, having_, inWhere, inHaving, distinct,
      fun e mem => (each e mem).2⟩
    rw [← speaking, ← all, List.map_map]
    rfl

end Collection

end Filter

end Reports
