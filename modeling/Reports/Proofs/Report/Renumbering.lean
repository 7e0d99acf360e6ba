import Reports.Proofs.Report.Assembly

/-! The same conditions, rendered from different counters: the query that a request puts together
binds alike whichever names were drawn for its filters and for the rest of it. -/
namespace Reports

open Sql (Query Dialect Source Clauses Statement Template Outline Name Follows placeholderName)
open Sql.Clauses (outlines holeTotal)
open Sql.Marked (ofText Neat)
open Reports.Filter (Clause)
open Reports.Filter.Collection (restriction templates)

/-- The first `h` names come from a counter at `a`, the others from one at `n`. -/
def resumed (a h n i : Nat) : Nat := if i < h then a + i + 1 else n + (i - h) + 1

section

variable {a h n : Nat}

theorem resumed_injective (le : a + h ≤ n) : Function.Injective (resumed a h n) := by
  intro i j same
  simp only [resumed] at same
  split at same <;> split at same <;> omega

theorem follows_resumed_first : Follows (resumed a h n) 0 a h := by
  intro i hi
  simp only [resumed, Nat.zero_add, if_pos hi]

theorem follows_resumed_second (h' : Nat) : Follows (resumed a h n) h n h' := by
  intro i _
  have past : ¬ h + i < h := by omega
  simp only [resumed, if_neg past, Nat.add_sub_cancel_left]

theorem lt_resumed (le : a ≤ n) (i : Nat) : a < resumed a h n i := by
  unfold resumed
  split <;> omega

end

namespace Sql

theorem Clauses.Worded.append {P : Marked → Prop} {T : String → Prop}
    {d : Dialect} {c : Clauses} {raw having raw' having' : List Outline} {source : Source}
    (worded : c.Worded P T d raw having source)
    (hr : ∀ o ∈ raw', P o.text) (hh : ∀ o ∈ having', P o.text) :
    c.Worded P T d (raw ++ raw') (having ++ having') source := by
  have both {os os' : List Outline} (ho : ∀ o ∈ os, P o.text) (ho' : ∀ o ∈ os', P o.text) :
      ∀ o ∈ os ++ os', P o.text := fun o mem => (List.mem_append.mp mem).elim (ho o) (ho' o)
  cases source with
  | none => trivial
  | table name correlation =>
    obtain ⟨pieces, raws, havings, named⟩ := worded
    exact ⟨pieces, both raws hr, both havings hh, named⟩
  | derived inner source correlation =>
    obtain ⟨pieces, raws, havings, named⟩ := worded
    exact ⟨pieces, both raws hr, both havings hh, named⟩

theorem Clauses.mem_keys_of_raw {d : Dialect} {c : Clauses} {raw having : List Outline} {k h : Nat}
    {source : Source} {o o' : Outline} (outlined : c.outlineOver d raw having k source = .ok (o, h))
    (ho : o' ∈ raw ∨ o' ∈ having) {a : Name} (ha : a ∈ o'.params.keys) :
    a ∈ o.params.keys := by
  obtain ⟨source', k', ts, -, rfl⟩ := outlineOver_weave outlined
  rw [params_weave, mem_keys_outlineParams]
  rcases ho with ho | ho
  · have some := conditions_ne_nil_of_raw (fragments (outlines k' ts))
      (List.ne_nil_of_mem (List.mem_map_of_mem (f := Outline.text) ho))
    refine Or.inr (Or.inl ⟨some, ?_⟩)
    rw [bodyParams, OrderedMap.mem_keys_mergeAll]
    exact Or.inr ⟨_, List.mem_map_of_mem ho, ha⟩
  · exact Or.inr (Or.inr ⟨o', ho, ha⟩)

theorem Outline.clear_resumed {o : Outline} {a n : Nat} (le : a ≤ n)
    (passed : ∀ name, .written name ∈ o.names → ∀ k, name = placeholderName k →
      k ≤ a) (h' : Nat) :
    o.Clear (resumed a h' n) := by
  intro b mem
  cases b with
  | drawn i => trivial
  | written name =>
    intro i same
    have small := passed name mem _ same
    have large := lt_resumed (h := h') le i
    omega

namespace Query

variable {d : Dialect} {ts : List (Clause × Template)}

/-- The outline of a query with what the templates of filters restrict. Their names come first. -/
def outlineWith (q : Query) (d : Dialect) (ts : List (Clause × Template)) :
    Except Error (Outline × Nat) :=
  q.outlineOver d (q.rawWhere.map .ofStatement ++ restriction .whereClause (outlines 0 ts))
    (q.rawHaving.map .ofStatement ++ restriction .havingClause (outlines 0 ts))
    (holeTotal ts) q.source

section Outlined

variable {q : Query} {o : Outline} {h : Nat} (outlined : q.outlineWith d ts = .ok (o, h))

include outlined

theorem bound_outlineWith : o.Bound := by
  have restricted (clause : Clause) : ∀ o ∈ restriction clause (outlines 0 ts), o.Bound :=
    Filter.Collection.bound_restriction (Clauses.bound_outlines 0 ts)
  have both {ss : List Statement} (clause : Clause) :
      ∀ o ∈ ss.map Outline.ofStatement ++ restriction clause (outlines 0 ts), o.Bound :=
    fun o mem =>
    (List.mem_append.mp mem).elim (Clauses.bound_written ss o) (restricted clause o)
  exact Clauses.bound_outlineOver (both .whereClause) (both .havingClause) outlined

theorem neat_outlineWith (balanced : q.Balanced d) (neat : ∀ e ∈ outlines 0 ts, Neat e.2.text) :
    o.text.Neat := by
  have restricted (clause : Clause) : ∀ o ∈ restriction clause (outlines 0 ts), Neat o.text :=
    Filter.Collection.worded_restriction Marked.weaves_neat neat
  exact Marked.weaves_neat.outlineOver (Clauses.Worded.append balanced (restricted .whereClause)
    (restricted .havingClause)) outlined

theorem render_restricted {a n : Nat} (le : a + holeTotal ts ≤ n)
    (clear : ∀ x ∈ o.params.keys, x.Clear (resumed a (holeTotal ts) n)) {c : Filter.Collection}
    (found : templates d c.context c.filters = .ok ts) :
    ∃ x, c.render d a = (.ok x, a + holeTotal ts) ∧
      (q.restricted x.effect).render d n = (.ok (o.fill (resumed a (holeTotal ts) n)), n + h) := by
  have distinct := resumed_injective le
  have restrictions (clause : Clause) :
      ∀ o' ∈ restriction clause (outlines 0 ts), ∀ b ∈ o'.params.keys,
        b.Clear (resumed a (holeTotal ts) n) := by
    intro o' ho b hb
    apply clear b
    cases clause with
    | whereClause =>
      exact Clauses.mem_keys_of_raw outlined (Or.inl (List.mem_append_right _ ho)) hb
    | havingClause =>
      exact Clauses.mem_keys_of_raw outlined (Or.inr (List.mem_append_right _ ho)) hb
  obtain ⟨x, rendered, effect⟩ :=
    Filter.Collection.render_effect found distinct restrictions follows_resumed_first
  refine ⟨x, rendered, ?_⟩
  have whole := (q.outlineOver_restricted x.effect d _ _ _).trans outlined
  refine Clauses.renderOver_ok distinct whole ?_ ?_ clear (follows_resumed_second h)
  · rw [List.map_append, ← Clauses.fill_map_ofStatement]
    exact congrArg (fun e => q.rawWhere ++ e.1) effect
  · rw [List.map_append, ← Clauses.fill_map_ofStatement]
    exact congrArg (fun e => q.rawHaving ++ e.2) effect

end Outlined

/-- Filters with the same templates make queries that bind alike, whichever counters the filters and
the queries are rendered from. -/
theorem bindsLike_restricted {q : Query} {c c' : Filter.Collection} {a a' m m' : Nat}
    {x x' : Filter.CollectionSql} (found : templates d c.context c.filters = .ok ts)
    (found' : templates d c'.context c'.filters = .ok ts) (filters : c.render d a = (.ok x, m))
    (filters' : c'.render d a' = (.ok x', m')) (balanced : q.Balanced d)
    (neat : ∀ e ∈ outlines 0 ts, Neat e.2.text)
    (passed : ∀ o h name, q.outlineWith d ts = .ok (o, h) → .written name ∈ o.names →
      ∀ k, name = placeholderName k → k ≤ a ∧ k ≤ a') {n n' : Nat} (le : m ≤ n)
        (le' : m' ≤ n') :
    BindsLike d (q.restricted x.effect) n (q.restricted x'.effect) n' := by
  cases outlined : q.outlineWith d ts with
  | error e =>
    have failed (y : List Statement × List Statement) (n : Nat) :
        ((q.restricted y).render d n).1 = .error e := by
      have outcome := Clauses.renderOver_outcome d (q.restricted y).toClauses q.source
        (q.rawWhere.map .ofStatement ++ restriction .whereClause (outlines 0 ts))
        (q.rawHaving.map .ofStatement ++ restriction .havingClause (outlines 0 ts)) (holeTotal ts) n
      rw [outlineOver_restricted] at outcome
      rw [outlineWith] at outlined
      rw [outlined] at outcome
      obtain ⟨m, rendered, -⟩ := outcome
      exact congrArg Prod.fst rendered
    rw [BindsLike, failed, failed]
  | ok result =>
    obtain ⟨o, h⟩ := result
    have bound := bound_outlineWith outlined
    have whole := neat_outlineWith outlined balanced neat
    have counted {c : Filter.Collection} {a m : Nat} {x : Filter.CollectionSql}
        (found : templates d c.context c.filters = .ok ts) (filters : c.render d a = (.ok x, m)) :
        m = a + holeTotal ts := by
      have outcome := Filter.Collection.render_outcome d c a
      rw [found] at outcome
      obtain ⟨y, same⟩ := outcome
      exact congrArg Prod.snd (filters.symm.trans same)
    obtain rfl := counted found filters
    obtain rfl := counted found' filters'
    have clear := Outline.clear_resumed (n := n) (by omega) (fun name mem k same =>
      (passed o h name outlined mem k same).1) (holeTotal ts)
    have clear' := Outline.clear_resumed (n := n') (by omega) (fun name mem k same =>
      (passed o h name outlined mem k same).2) (holeTotal ts)
    obtain ⟨y, again, rendered⟩ := render_restricted outlined le
      (fun b hb => clear b (Outline.mem_names.mpr (Or.inl hb))) found
    obtain ⟨y', again', rendered'⟩ := render_restricted outlined le'
      (fun b hb => clear' b (Outline.mem_names.mpr (Or.inl hb))) found'
    obtain rfl : x = y := Except.ok.inj (congrArg Prod.fst (filters.symm.trans again))
    obtain rfl : x' = y' := Except.ok.inj (congrArg Prod.fst (filters'.symm.trans again'))
    rw [BindsLike, rendered, rendered']
    exact Outline.bind_fill whole bound (resumed_injective le) (resumed_injective le') clear clear'

end Query

end Sql

namespace Request

def atPage (q : Query) (page : Option PageInfo) : Query :=
  match page with
  | some info => q.setOffset info.offset
  | none => q

theorem atPage_restricted (q : Query) (x : List Statement × List Statement)
    (page : Option PageInfo) :
    atPage (q.restricted x) page = (atPage q page).restricted x := by
  cases page <;> rfl

/-- The texts written by hand are balanced: those of the query and the selectors of the filters. -/
structure Balanced (r : Request) : Prop where
  query : ∀ q, r.base = .ok q → q.Balanced r.dialect
  selectors : ∀ f ∈ r.filters.filters, Neat (ofText f.selector)

/-- The names that stand in texts written by hand and in their parameters. -/
def Writes (r : Request) (name : String) : Prop :=
  ∃ q ts page o h, r.base = .ok q ∧
    templates r.dialect r.filters.context r.filters.filters = .ok ts ∧
      (atPage q page).outlineWith r.dialect ts = .ok (o, h) ∧ .written name ∈ o.names

theorem balanced_atPage {q : Query} {d : Dialect} (balanced : q.Balanced d)
    (page : Option PageInfo) : (atPage q page).Balanced d := by
  cases page with
  | none => exact balanced
  | some info =>
    obtain ⟨c, source⟩ := q
    cases source with
    | none => trivial
    | table name correlation => exact ⟨{ balanced.1 with }, balanced.2⟩
    | derived inner source correlation => exact ⟨{ balanced.1 with }, balanced.2⟩

/-- A request whose filters have the same templates as those that a query was put together with puts
together a query that binds alike on every page, whichever counters the two are rendered from. -/
theorem buildQuery_again {r : Request} {c : Filter.Collection}
    (same : templates r.dialect c.context c.filters =
      templates r.dialect r.filters.context r.filters.filters) {s s' : Session} {q : Query}
    (built : ({ r with filters := c }).buildQuery s = (.ok q, s')) (now : Session) :
    ∃ q' later, r.buildQuery now = (.ok q', later) ∧ (r.Balanced →
      (∀ name, r.Writes name → ∀ k, name = placeholderName k →
        k ≤ s.drawn ∧ k ≤ now.drawn) → ∀ page n n', s'.drawn ≤ n →
          later.drawn ≤ n' → (atPage q page).BindsLike r.dialect n (atPage q' page) n') := by
  obtain ⟨x, m, q₀, whole, filters, base, rfl, rendered⟩ := render_of_buildQuery built
  have counted : m ≤ s'.drawn := Query.le_of_render rendered
  cases found : templates r.dialect c.context c.filters with
  | error e =>
    have outcome := Filter.Collection.render_outcome r.dialect c s.drawn
    rw [found] at outcome
    obtain ⟨m', failed, -⟩ := outcome
    have ended := filters.symm.trans failed
    cases ended
  | ok ts =>
    rw [found] at same
    have outcome := Filter.Collection.render_outcome r.dialect r.filters now.drawn
    rw [← same] at outcome
    obtain ⟨x', filters'⟩ := outcome
    obtain ⟨whole', m', rendered'⟩ :=
      Query.exists_render rendered x'.effect (now.drawn + holeTotal ts)
    obtain ⟨later, built', drawn⟩ := buildQuery_of_render filters' base rendered'
    refine ⟨_, later, built', fun balanced passed page n n' le le' => ?_⟩
    have counted' : now.drawn + holeTotal ts ≤ later.drawn :=
      drawn ▸ Query.le_of_render rendered'
    rw [atPage_restricted, atPage_restricted]
    refine Query.bindsLike_restricted found same.symm filters filters'
      (balanced_atPage (balanced.query _ base) page)
      (Filter.Collection.neat_templates balanced.selectors same.symm 0) ?_ (Nat.le_trans counted le)
      (Nat.le_trans counted' le')
    intro o h name outlined mem k eq
    exact passed name ⟨q₀, ts, page, o, h, base, same.symm, outlined, mem⟩ k eq

end Request

end Reports
