import Reports.Proofs.Filter.Shape
import Reports.Proofs.Sql.Where

/-! What filters demand of rows. Each contributes a condition that holds together and is not the
trivial one, so that the condition of a clause holds when every fragment of it does. -/
namespace Reports

open Sql (Dialect Predicate Reads ReadsTight Statement Template placeholderName)
open Sql.Precedence (Holds Item)

variable {table : String → String} {d : Dialect}

namespace Filter

/-- A filter on a value, with tables for what its condition reads from. -/
structure Plain (table : String → String) (f : Filter) : Prop where
  selector : ReadsTight table f.selector
  tables : f.handler = .condition .enrolledCourses →
    ∀ name ∈ ["enrol", "user_enrolments"], ∃ is, Sql.Precedence.read (table name) = some is

theorem Condition.reads_enrolments (userId : Int) (n : Nat)
    (tables : ∀ name ∈ ["enrol", "user_enrolments"],
      ∃ is, Sql.Precedence.read (table name) = some is) :
    ∃ is, Reads table (Template.fillPieces n (Condition.enrolments userId).pieces).1.sql is := by
  obtain ⟨is, enrol⟩ := tables "enrol" (by simp)
  obtain ⟨js, users⟩ := tables "user_enrolments" (by simp)
  have first : Reads table ("\x7b" ++ "enrol" ++ "\x7d") is := .braced (by decide) enrol
  have second : Reads table ("\x7b" ++ "user_enrolments" ++ "\x7d") js := .braced (by decide) users
  obtain ⟨_, selects⟩ : ∃ ks, Reads table "SELECT e.courseid FROM" ks :=
    Sql.exists_reads (by decide +kernel)
  obtain ⟨_, joins⟩ : ∃ ks, Reads table "e JOIN" ks :=
    Sql.exists_reads (by decide +kernel)
  obtain ⟨_, matching⟩ : ∃ ks, Reads table "ue ON ue.enrolid = e.id WHERE ue.userid =" ks :=
    Sql.exists_reads (by decide +kernel)
  obtain ⟨_, name, -⟩ : ReadsTight table (":" ++ placeholderName (n + 1)) :=
    Sql.readsTight_placeholder (n + 1)
  have tablesRead := ((selects.separated first).separated joins).separated second
  have whole := (tablesRead.separated matching).separated name
  have text : (Template.fillPieces n (Condition.enrolments userId).pieces).1.sql =
      "SELECT e.courseid FROM" ++ " " ++ ("\x7b" ++ "enrol" ++ "\x7d") ++ " " ++ "e JOIN" ++ " " ++
        ("\x7b" ++ "user_enrolments" ++ "\x7d") ++ " " ++
        "ue ON ue.enrolid = e.id WHERE ue.userid =" ++ " " ++ (":" ++ placeholderName (n + 1)) := by
    simp [Template.fillPieces, Condition.enrolments]
  rw [text]
  exact ⟨_, whole⟩

section Predicates

variable {selector : String} (tight : ReadsTight table selector)

include tight

theorem plain_new (vs : List Json) (o : Sql.Operator) (c : Sql.Conjunction) :
    (Predicate.new selector vs o c).Plain table d := by
  constructor
  · exact tight
  · exact fun r mem => nomatch mem
  · exact fun t given => nomatch given
  · exact fun render t given => nomatch given

theorem plain_never : (Predicate.never selector).Plain table d := by
  constructor
  · exact tight
  · exact fun r mem => nomatch mem
  · exact fun t given => nomatch given
  · intro render t given rendered n
    cases given
    cases rendered
    have fixed : ReadsTight table "1 = 0" := Sql.readsTight_of_isTight (by decide +kernel)
    exact fixed

end Predicates

theorem blank_base {p : Predicate} {t : Template} (found : p.base d = .ok t)
    (fixed : ∀ render, p.renderer = some render → render = Sql.neverTrue) (n : Nat) :
    ' ' ∈ (Template.fillPieces n t.pieces).1.sql.toList := by
  have form := Predicate.base_form found
  generalize p.drawnValues d = vs at form
  cases form with
  | list negate =>
    unfold Sql.inOrEqual
    split <;> cases negate <;> simp [Template.fillPieces]
  | comparison v _ => simp [Template.fillPieces]
  | pattern v _ => simp [Template.fillPieces]
  | subquery _ _ => simp [Template.fillPieces]
  | renderer given rendered =>
    obtain rfl := fixed _ given
    cases rendered
    simp [Template.fillPieces, Template.ofText]

/-- What a filter can contribute: a comparison with values, no row, or membership in the courses of
the user. -/
inductive Contribution (f : Filter) (ctx : Context) : Predicate → Prop
  | compared (vs : List Json) (o : Sql.Operator) : f.Contribution ctx (.new f.selector vs o)
  | never : f.Contribution ctx (.never f.selector)
  | enrolments : f.handler = .condition .enrolledCourses →
    f.Contribution ctx
      ((Predicate.new f.selector [] .inQuery).setSubquery (Condition.enrolments ctx.userId))

theorem contribution {f : Filter} {ctx : Context} {p : Predicate}
    (given : f.predicate? ctx = .ok (some p)) : f.Contribution ctx p := by
  unfold Filter.predicate? at given
  cases handler : f.handler with
  | condition c =>
    rw [handler, Handler.predicate?, Except.ok.injEq, Option.some.injEq] at given
    subst given
    cases c with
    | loggedInUser => exact .compared _ _
    | currentCourse =>
      unfold Condition.predicate
      cases ctx.courseId with
      | none => exact .never
      | some id => exact .compared _ _
    | myGroups =>
      unfold Condition.predicate
      dsimp only
      split
      · exact .never
      · exact .compared _ _
    | enrolledCourses => exact .enrolments handler
  | select selection =>
    rw [handler, Handler.predicate?, Except.ok.injEq] at given
    rcases Selection.predicate?_cases given with rfl | ⟨vs, o, rfl, -⟩
    · exact .never
    · exact .compared vs o
  | _ =>
    rw [handler] at given
    obtain ⟨vs, o, rfl⟩ := Handler.predicate?_compared rfl (by simp) given
    exact .compared vs o

namespace Contribution

variable {f : Filter} {ctx : Context} {p : Predicate}

theorem plain (contribution : f.Contribution ctx p) (readable : f.Plain table) :
    p.Plain table d := by
  cases contribution with
  | compared vs o => exact plain_new readable.selector vs o .and
  | never => exact plain_never readable.selector
  | enrolments handler =>
    constructor
    · exact readable.selector
    · exact fun r mem => nomatch mem
    · intro t given n
      cases given
      exact Condition.reads_enrolments ctx.userId n (readable.tables handler)
    · exact fun render t given => nomatch given

theorem template_eq (contribution : f.Contribution ctx p) (d : Dialect) :
    p.template d = p.base d := by
  have alone : p.rawConditions = [] := by cases contribution <;> rfl
  rw [Predicate.template, alone]
  cases p.base d <;> rfl

theorem renderer_eq (contribution : f.Contribution ctx p) {render : Sql.Renderer}
    (given : p.renderer = some render) : render = Sql.neverTrue := by
  cases contribution with
  | never => exact (Option.some.inj given).symm
  | _ => cases given

theorem blank (contribution : f.Contribution ctx p) {n m : Nat} {s : Statement}
    (rendered : p.render d n = (.ok s, m)) : ' ' ∈ s.sql.toList := by
  cases template : p.template d with
  | error e =>
    rw [Predicate.render, template] at rendered
    cases rendered
  | ok t =>
    have text : s.sql = (Template.fillPieces n t.pieces).1.sql := by
      rw [Predicate.render, template] at rendered
      cases rendered
      rfl
    rw [contribution.template_eq] at template
    rw [text]
    exact blank_base template (fun render => contribution.renderer_eq) n

end Contribution

/-- A fragment that is one condition, and not the trivial one. -/
structure Demand (table : String → String) (s : Statement) : Prop where
  tight : ReadsTight table s.sql
  blank : ' ' ∈ s.sql.toList

namespace Collection

variable {fs : List Filter} {ctx : Context} {n m : Nat} {fragments : List (Clause × Statement)}

theorem renderFilters_cons {f : Filter}
    (rendered : renderFilters d ctx (f :: fs) n = (.ok fragments, m)) :
    (f.predicate? ctx = .ok none ∧ renderFilters d ctx fs n = (.ok fragments, m)) ∨
      ∃ p s k ss, f.predicate? ctx = .ok (some p) ∧ p.render d n = (.ok s, k) ∧
        renderFilters d ctx fs k = (.ok ss, m) ∧ fragments = (f.clause, s) :: ss := by
  rw [renderFilters] at rendered
  cases given : f.predicate? ctx with
  | error e =>
    have failed : (liftM (f.predicate? ctx) : Sql.Draw _) n = (.error e, n) := by
      rw [given]
      rfl
    rw [Effect.bind_error _ failed] at rendered
    cases rendered
  | ok contributed =>
    have known : (liftM (f.predicate? ctx) : Sql.Draw _) n = (.ok contributed, n) := by
      rw [given]
      rfl
    rw [Effect.bind_ok _ known] at rendered
    cases contributed with
    | none => exact .inl ⟨rfl, rendered⟩
    | some p =>
      dsimp only at rendered
      obtain ⟨s, k, here, rendered⟩ := Effect.of_bind_ok rendered
      obtain ⟨ss, k', others, rendered⟩ := Effect.of_bind_ok rendered
      cases rendered
      exact .inr ⟨p, s, k, ss, rfl, here, others, rfl⟩

theorem demand_renderFilters (readable : ∀ f ∈ fs, f.Plain table)
    (rendered : renderFilters d ctx fs n = (.ok fragments, m)) :
    ∀ e ∈ fragments, Demand table e.2 := by
  induction fs generalizing n fragments with
  | nil =>
    cases rendered
    exact fun e mem => nomatch mem
  | cons f rest ih =>
    obtain ⟨first, others⟩ := List.forall_mem_cons.mp readable
    rcases renderFilters_cons rendered with ⟨-, later⟩ |
      ⟨p, s, k, ss, given, here, later, rfl⟩
    · exact ih others later
    · have contribution := contribution given
      rw [List.forall_mem_cons]
      constructor
      · exact ⟨(contribution.plain first).render here, contribution.blank here⟩
      · exact ih others later

end Collection

theorem blank_join {texts : List String} (some : texts ≠ [])
    (each : ∀ t ∈ texts, ' ' ∈ t.toList) : ' ' ∈ (Text.join " AND " texts).toList := by
  obtain ⟨t, rest, rfl⟩ := List.exists_cons_of_ne_nil some
  have first := each t List.mem_cons_self
  cases rest with
  | nil => exact first
  | cons u rest => simp [Text.join, first]

theorem ofParts_of_blank {ss : List Statement} (some : ss ≠ [])
    (blank : ∀ s ∈ ss, ' ' ∈ s.sql.toList) :
    (ClauseSql.ofParts ss).statement.sql = Text.join " AND " (ss.map (·.sql)) ∧
      (ClauseSql.ofParts ss).isTrivial = false := by
  have texts : ss.map (·.sql) ≠ [] := by simpa using some
  have blank : ' ' ∈ (Text.join " AND " (ss.map (·.sql))).toList :=
    blank_join texts (List.forall_mem_map.mpr blank)
  have statement : (ClauseSql.ofParts ss).statement.sql = Text.join " AND " (ss.map (·.sql)) := by
    rw [ClauseSql.ofParts, List.isEmpty_eq_false_iff.mpr some]
    rfl
  refine ⟨statement, ?_⟩
  rw [ClauseSql.isTrivial, statement, beq_eq_false_iff_ne]
  intro trivially
  rw [trivially] at blank
  exact absurd blank (by decide)

/-- Fragments that are conditions of their own restrict, as one condition that holds when each of
them does. -/
theorem effect_ofParts {ss : List Statement} (some : ss ≠ [])
    (each : ∀ s ∈ ss, Demand table s) :
    ∃ r, (ClauseSql.ofParts ss).effect = [r] ∧ ReadsTight table r.sql ∧
      ∀ atomic, Holds atomic (Sql.TableRef.expandWith table r.sql) ↔
        ∀ s ∈ ss, Holds atomic (Sql.TableRef.expandWith table s.sql) := by
  have texts : ss.map (·.sql) ≠ [] := by simpa using some
  obtain ⟨statement, restricts⟩ := ofParts_of_blank some fun s mem => (each s mem).blank
  obtain ⟨tight, truth⟩ :=
    Sql.readsTight_join texts (List.forall_mem_map.mpr fun s mem => (each s mem).tight)
  refine ⟨(ClauseSql.ofParts ss).statement, ?_, ?_, fun atomic => ?_⟩
  · rw [ClauseSql.effect, restricts]
    rfl
  · rw [statement]
    exact tight
  · rw [statement, truth, List.forall_mem_map]

theorem effect_implies {ss : List Statement} (each : ∀ s ∈ ss, Demand table s) :
    (∀ r ∈ (ClauseSql.ofParts ss).effect, ReadsTight table r.sql) ∧
      ∀ s ∈ ss, (ClauseSql.ofParts ss).effect ≠ [] ∧ ∀ atomic,
        (∀ r ∈ (ClauseSql.ofParts ss).effect,
          Holds atomic (Sql.TableRef.expandWith table r.sql)) →
        Holds atomic (Sql.TableRef.expandWith table s.sql) := by
  by_cases none : ss = []
  · subst none
    constructor
    · exact fun r mem => nomatch mem
    · exact fun s mem => nomatch mem
  · obtain ⟨r, effect, tight, truth⟩ := effect_ofParts none each
    rw [effect]
    constructor
    · intro r' mem
      rw [List.mem_singleton.mp mem]
      exact tight
    · intro s mem
      refine ⟨List.cons_ne_nil r [], fun atomic holds => ?_⟩
      exact (truth atomic).mp (holds r List.mem_cons_self) s mem

theorem Collection.fragments_of_render {c : Collection} {n m : Nat} {x : CollectionSql}
    (rendered : c.render d n = (.ok x, m)) :
    ∃ fragments, Collection.renderFilters d c.context c.filters n = (.ok fragments, m) ∧
      x = ⟨.ofParts (Collection.partsOf .whereClause fragments),
        .ofParts (Collection.partsOf .havingClause fragments)⟩ := by
  obtain ⟨fragments, k, parts, rendered⟩ := Effect.of_bind_ok rendered
  cases rendered
  exact ⟨fragments, parts, rfl⟩

end Filter

end Reports
