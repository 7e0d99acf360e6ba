import Reports.Proofs.Filter.Loading
import Reports.Proofs.Report.Reading
import Reports.Proofs.Report.Renumbering

/-! Whether the query that a request keeps is the one that its state stands for. Every operation
that changes what the query depends on forgets it, except loading options: after that, a query kept
from before holds what the filters restricted then. -/
namespace Reports

open Reports.Filter.Collection (templates)
open Sql (Query Statement placeholderName)

namespace Request

def shownPage (r : Request) : RequestAction (Option PageInfo) :=
  if r.layout.isPaginated then some <$> pageInfo else pure none

def ask (r : Request) : RequestAction (Option PageInfo × Statement) := do
  let page ← shownPage r
  let q ← getQuery
  let s ← act (orUnavailable (Session.draw ((atPage q page).render r.dialect)))
  return (page, s)

def dataStatement : RequestAction (Option PageInfo × Statement) := do
  let r ← current
  init
  ask r

def display (r : Request) (page : Option PageInfo) (raw : List Row) :
    RequestAction (Option RowSet) := do
  prefetchLabels raw r.displayFields
  let r' ← current
  match raw.mapM (showRow { labels := r'.labels, clock := r'.clock } r.displayFields) with
  | none => return none
  | some rows =>
    act (Session.log (.executed r'.report.name rows.length (page.map (·.page))))
    return some { rows, page }

def present (r : Request) (page : Option PageInfo) (s : Statement) :
    RequestAction (Option RowSet) := do
  let raw ← act (r.storage.fetch s)
  display r page raw

theorem getData_eq {r : Request} (configured : r.preferences.isSome = true) (s : Session) :
    getData r s = (dataStatement >>= fun x => present r x.1 x.2) r s := by
  have set : r.preferences.isNone = false := by
    rw [Option.isNone_eq_false_iff]
    exact configured
  have here : current r s = ((.ok r, r), s) := rfl
  rw [getData, bind_ok _ here, dataStatement, bind_assoc, bind_ok _ here, set]
  unfold ask shownPage
  by_cases paginated : r.layout.isPaginated = true
  · simp only [paginated, bind_assoc, pure_bind, Bool.false_eq_true, if_false, if_true]
    rfl
  · simp only [paginated, bind_assoc, pure_bind, Bool.false_eq_true, if_false]
    rfl

theorem reading_shownPage (r : Request) : Reading (shownPage r) := by
  unfold shownPage
  split
  · exact Reading.pageInfo.map some
  · exact .pure none

theorem reading_ask (r : Request) : Reading (ask r) := by
  refine (reading_shownPage r).bind fun page => Reading.getQuery.bind fun q => ?_
  exact (Reading.act (obeys_orUnavailable (fun _ => trivial) (Action.Grows.render _ _))).bind
    fun s => .pure (page, s)

theorem reading_display (r : Request) (page : Option PageInfo) (raw : List Row) :
    Reading (display r page raw) := by
  refine (Reading.prefetchLabels raw r.displayFields).bind fun _ =>
    Reading.current.bind fun r' => ?_
  split
  · exact .pure none
  · next rows _ =>
    exact (Reading.act (.log _)).bind fun _ => .pure (some (RowSet.mk rows page))

theorem reading_present (r : Request) (page : Option PageInfo) (s : Statement) :
    Reading (present r page s) :=
  (Reading.act (.fetch r.storage s)).bind fun raw => reading_display r page raw

theorem mem_calls_present (r r' : Request) (page : Option PageInfo) (statement : Statement)
    (s : Session) : ∃ bound, ⟨statement, bound⟩ ∈
    (present r page statement r' s).2.calls := by
  obtain ⟨bound, mem⟩ := Action.mem_calls_fetch r.storage statement s
  rcases outcome : r.storage.fetch statement s with ⟨e | raw, s'⟩
  · rw [outcome] at mem
    rw [present, bind_error _ (act_eq outcome r')]
    exact ⟨bound, mem⟩
  · rw [outcome] at mem
    rw [present, bind_ok _ (act_eq outcome r')]
    exact ⟨bound, (reading_display r page raw r' s').session.calls.subset mem⟩

theorem ask_ok {r r₁ r₂ : Request} {s₁ s₂ : Session} {page : Option PageInfo}
    {statement : Statement} (asked : ask r r₁ s₁ = ((.ok (page, statement), r₂), s₂)) :
    ∃ q s m, Reads r₁ s₁ r₂ s ∧ r₂.query = some q ∧ s.Extends s₂ ∧
      (atPage q page).render r.dialect s.drawn = (.ok statement, m) := by
  have paged := reading_shownPage r r₁ s₁
  rw [ask] at asked
  obtain ⟨page', r', s', shown, rest⟩ := of_bind_ok asked
  have read := Reading.getQuery r' s'
  obtain ⟨q, r₃, s₃, got, drawing⟩ := of_bind_ok rest
  have grows := (obeys_orUnavailable (fun _ => trivial)
    (Action.Grows.render (atPage q page') r.dialect) s₃).1
  obtain ⟨statement', r₄, s₄, acted, last⟩ := of_bind_ok drawing
  obtain ⟨rfl, rendered⟩ := of_act acted
  cases last
  rw [shown] at paged
  rw [got] at read
  rw [rendered] at grows
  obtain ⟨m, whole⟩ := draw_of_orUnavailable rendered
  exact ⟨q, s₃, m, paged.trans read, query_of_getQuery got, grows, whole⟩

theorem dataStatement_ok {r r₂ : Request} {s s₂ : Session} {page : Option PageInfo}
    {statement : Statement} (asked : dataStatement r s = ((.ok (page, statement), r₂), s₂)) :
    ∃ c s₁ q s' m, r.filters.LoadedInto c ∧ s.Extends s₁ ∧
      Reads { r with filters := c } s₁ r₂ s' ∧ r₂.query = some q ∧ s'.Extends s₂ ∧
        (atPage q page).render r.dialect s'.drawn = (.ok statement, m) := by
  obtain ⟨grows, loaded⟩ := Filter.Collection.init_loadedInto r.filters r.storage s
  rw [dataStatement, bind_ok _ (rfl : current r s = _)] at asked
  obtain ⟨_, r₁, s₁, done, rest⟩ := of_bind_ok asked
  obtain ⟨c, rfl, outcome⟩ := of_init done
  rw [outcome] at grows loaded
  obtain ⟨q, s', m, reads, held, later, rendered⟩ := ask_ok rest
  exact ⟨c, s₁, q, s', m, loaded, grows, reads, held, later, rendered⟩

theorem init_then {α : Type} {x : RequestAction α} (reading : Reading x) (r : Request)
    (s : Session) :
    ∃ c s', r.filters.LoadedInto c ∧ s.Extends s' ∧
      Reads { r with filters := c } s' ((init >>= fun _ => x) r s).1.2
        ((init >>= fun _ => x) r s).2 := by
  obtain ⟨grows, loaded⟩ := Filter.Collection.init_loadedInto r.filters r.storage s
  rcases outcome : r.filters.init r.storage s with ⟨⟨e | _, c⟩, s'⟩
  · rw [outcome] at grows loaded
    rw [bind_error _ (init_eq outcome)]
    exact ⟨c, s', loaded, grows, .refl _ _⟩
  · rw [outcome] at grows loaded
    rw [bind_ok _ (init_eq outcome)]
    exact ⟨c, s', loaded, grows, reading _ _⟩

theorem getData_loaded (r : Request) (s : Session) :
    ∃ c s', r.filters.LoadedInto c ∧ s.Extends s' ∧
      Reads { r with filters := c } s' (getData r s).1.2 (getData r s).2 := by
  by_cases configured : r.preferences.isSome = true
  · have reading : Reading (ask r >>= fun x => present r x.1 x.2) :=
      (reading_ask r).bind fun x => reading_present r x.1 x.2
    have same : getData r s = (init >>= fun _ => ask r >>= fun x => present r x.1 x.2) r s := by
      rw [getData_eq configured, dataStatement, bind_assoc,
        bind_ok _ (rfl : current r s = _), bind_assoc]
    rw [same]
    exact init_then reading r s
  · have silent : r.preferences.isNone = true := by simpa using configured
    refine ⟨r.filters, s, .refl _, .refl _, ?_⟩
    rw [getData, bind_ok _ (rfl : current r s = _), if_pos silent]
    exact (Reading.act (.log _)).bind (fun _ => .pure (some (RowSet.mk [] none))) r s

inductive Operation
  | withFilters (filters : Filter.Collection)
  | withPreferences (preferences : Preferences)
  | withLayout (layout : Layout)
  | withPage (page : UInt32)
  | withSort (field : String) (direction : Sql.Direction)
  | withSettings (settings : Settings)
  | applyFilter (name : String) (value : Json)
  | init
  | getQuery
  | count (unique : Bool)
  | pageInfo
  | getData

def after {α : Type} (x : RequestAction α) (r : Request) (s : Session) : Request × Session :=
  ((x r s).1.2, (x r s).2)

def Operation.perform : Operation → Request → Session → Request × Session
  | withFilters filters, r, s => (r.withFilters filters, s)
  | withPreferences preferences, r, s => (r.withPreferences preferences, s)
  | withLayout layout, r, s => (r.withLayout layout, s)
  | withPage page, r, s => (r.withPage page, s)
  | withSort field direction, r, s => (r.withSort field direction, s)
  | withSettings settings, r, s => (r.withSettings settings, s)
  | applyFilter name value, r, s => after (Request.applyFilter name value) r s
  | init, r, s => after Request.init r s
  | getQuery, r, s => after Request.getQuery r s
  | count unique, r, s => after (Request.count unique) r s
  | pageInfo, r, s => after Request.pageInfo r s
  | getData, r, s => after Request.getData r s

/-- A request in a session, and its filters as they were when the query that it keeps was put
together. -/
structure Trace where
  request : Request
  session : Session
  basis : Filter.Collection

namespace Trace

def start (r : Request) (s : Session) : Trace := ⟨r, s, r.filters⟩

def moved (t : Trace) (p : Request × Session) : Trace :=
  ⟨p.1, p.2, if t.request.query.isSome && p.1.query.isSome then t.basis else p.1.filters⟩

def step (t : Trace) (op : Operation) : Trace := t.moved (op.perform t.request t.session)

def run (t : Trace) (ops : List Operation) : Trace := ops.foldl step t

/-- The request with the filters that its query was put together with. -/
def origin (t : Trace) : Request := { t.request with filters := t.basis }

structure Holds (start : Nat) (t : Trace) (q : Query) (before after : Session) : Prop where
  since : start ≤ before.drawn
  built : t.origin.buildQuery before = (.ok q, after)
  past : after.drawn ≤ t.session.drawn

/-- What every operation preserves: only options were loaded since the query was put together. -/
structure Kept (start : Nat) (t : Trace) : Prop where
  counter : start ≤ t.session.drawn
  basis : t.basis.LoadedInto t.request.filters
  query : ∀ q, t.request.query = some q → ∃ before after, t.Holds start q before after

theorem kept_start {r : Request} (fresh : r.query = none) (s : Session) :
    (start r s).Kept s.drawn := by
  refine ⟨Nat.le_refl _, .refl _, fun q held => ?_⟩
  have none : some q = none := held.symm.trans fresh
  cases none

section Step

variable {n : Nat} {t : Trace}

theorem kept_forgotten {r : Request} {s : Session} (kept : t.Kept n) (forgotten : r.query = none)
    (grows : t.session.Extends s) : (t.moved (r, s)).Kept n := by
  have basis : (t.moved (r, s)).basis = r.filters := by
    simp only [moved, forgotten, Option.isSome_none, Bool.and_false, Bool.false_eq_true, if_false]
  refine ⟨Nat.le_trans kept.counter grows.drawn, ?_, fun q held => ?_⟩
  · rw [basis]
    exact .refl _
  · have none : some q = none := held.symm.trans forgotten
    cases none

theorem origin_inputs {r r' : Request} (same : r'.inputs = r.inputs) (c : Filter.Collection) :
    ({ r' with filters := c }).inputs = ({ r with filters := c }).inputs :=
  congrArg (fun r : Request => { r with filters := c }) same

theorem kept_advanced {c : Filter.Collection} {s s' : Session} {r' : Request} (kept : t.Kept n)
    (loaded : t.request.filters.LoadedInto c) (grows : t.session.Extends s)
    (reads : Reads { t.request with filters := c } s r' s') : (t.moved (r', s')).Kept n := by
  have filters : r'.filters = c := reads.filters
  have counter := Nat.le_trans kept.counter (grows.trans reads.session).drawn
  rcases reads.query with same | ⟨none, q, before, after, held, le, built, le'⟩
  · cases held : t.request.query with
    | none => exact kept_forgotten kept (same.trans held) (grows.trans reads.session)
    | some q =>
      have basis : (t.moved (r', s')).basis = t.basis := by
        have held' : r'.query = some q := same.trans held
        simp only [moved, held, held', Option.isSome_some, Bool.and_self, if_true]
      refine ⟨counter, ?_, fun q' held' => ?_⟩
      · rw [basis]
        exact kept.basis.trans (filters ▸ loaded)
      · obtain ⟨before, after, holds⟩ := kept.query q' (same.symm.trans held')
        refine ⟨before, after, holds.since, ?_, ?_⟩
        · rw [origin, basis, ← holds.built]
          exact congrFun (buildQuery_inputs (origin_inputs reads.inputs t.basis)) before
        · exact Nat.le_trans holds.past (grows.trans reads.session).drawn
  · have basis : (t.moved (r', s')).basis = r'.filters := by
      have none' : t.request.query = .none := none
      simp only [moved, none', Option.isSome_none, Bool.false_and, Bool.false_eq_true, if_false]
    refine ⟨counter, ?_, fun q' held' => ?_⟩
    · rw [basis]
      exact .refl _
    · obtain rfl : q = q' := Option.some.inj (held.symm.trans held')
      refine ⟨before, after, ?_, ?_, le'⟩
      · exact Nat.le_trans kept.counter (Nat.le_trans grows.drawn le)
      · rw [origin, basis, ← built]
        exact congrFun (buildQuery_inputs reads.inputs) before

end Step

theorem kept_step {n : Nat} {t : Trace} (kept : t.Kept n) (op : Operation) :
    (t.step op).Kept n := by
  have reading {α : Type} {x : RequestAction α} (reads : Reading x) :
      (t.moved (Request.after x t.request t.session)).Kept n :=
    kept_advanced kept (.refl _) (.refl _) (reads t.request t.session)
  -- Setters and applied values forget the query; all other operations load options or read.
  cases op with
  | withFilters filters => exact kept_forgotten kept rfl (.refl _)
  | withPreferences preferences => exact kept_forgotten kept rfl (.refl _)
  | withLayout layout => exact kept_forgotten kept rfl (.refl _)
  | withPage page => exact kept_forgotten kept rfl (.refl _)
  | withSort field direction => exact kept_forgotten kept rfl (.refl _)
  | withSettings settings => exact kept_forgotten kept rfl (.refl _)
  | applyFilter name value =>
    have forgotten : (applyFilter name value t.request t.session).1.2.query = none ∧
        (applyFilter name value t.request t.session).2 = t.session := by
      unfold applyFilter
      split <;> exact ⟨rfl, rfl⟩
    have grows : t.session.Extends (applyFilter name value t.request t.session).2 := by
      rw [forgotten.2]
      exact .refl _
    exact kept_forgotten kept forgotten.1 grows
  | init =>
    obtain ⟨grows, loaded⟩ :=
      Filter.Collection.init_loadedInto t.request.filters t.request.storage t.session
    exact kept_advanced kept loaded grows (.refl _ _)
  | getQuery => exact reading .getQuery
  | count unique => exact reading (.count unique)
  | pageInfo => exact reading .pageInfo
  | getData =>
    obtain ⟨c, s, loaded, grows, reads⟩ := getData_loaded t.request t.session
    exact kept_advanced kept loaded grows reads

theorem kept_run {n : Nat} {t : Trace} (kept : t.Kept n) (ops : List Operation) :
    (t.run ops).Kept n := by
  induction ops generalizing t with
  | nil => exact kept
  | cons op rest ih => exact ih (kept_step kept op)

/-- A query that a request keeps: it was put together from the filters that were the basis then. It
is what the request would have put together exactly when its filters restrict the same, and as long
as they have the templates of the basis it binds like one that is put together anew, on every
page. -/
structure Serves (start : Nat) (t : Trace) (q : Query) (before after : Session) : Prop where
  holds : t.Holds start q before after
  loaded : t.basis.LoadedInto t.request.filters
  unchanged : (∃ later, t.request.buildQuery before = (.ok q, later)) ↔
    t.basis.RestrictsLike t.request.filters t.request.dialect before.drawn
  current : templates t.request.dialect t.basis.context t.basis.filters =
      templates t.request.dialect t.request.filters.context t.request.filters.filters →
    ∀ now : Session, start ≤ now.drawn →
      ∃ q' later, t.request.buildQuery now = (.ok q', later) ∧
      (t.request.Balanced →
        (∀ name, t.request.Writes name → ∀ k, name = placeholderName k → k ≤ start) →
        ∀ page n n', after.drawn ≤ n → later.drawn ≤ n' →
          (atPage q page).BindsLike t.request.dialect n (atPage q' page) n')

theorem serves_of_holds {n : Nat} {t : Trace} {q : Query} {before after : Session} (kept : t.Kept n)
    (holds : t.Holds n q before after) : t.Serves n q before after := by
  refine ⟨holds, kept.basis, buildQuery_iff holds.built, fun same now le => ?_⟩
  obtain ⟨q', later, built, alike⟩ := buildQuery_again same holds.built now
  refine ⟨q', later, built, fun balanced passed => alike balanced fun name writes k eq => ?_⟩
  have small := passed name writes k eq
  exact ⟨Nat.le_trans small holds.since, Nat.le_trans small le⟩

theorem Holds.read {n : Nat} {t : Trace} {q : Query} {before after s' : Session} {r' : Request}
    (holds : t.Holds n q before after) (reads : Reads t.request t.session r' s') :
    (⟨r', s', t.basis⟩ : Trace).Holds n q before after := by
  refine ⟨holds.since, ?_, Nat.le_trans holds.past reads.session.drawn⟩
  rw [← holds.built]
  exact congrFun (buildQuery_inputs (origin_inputs reads.inputs t.basis)) before

end Trace

end Request

namespace Request

theorem query_new {report : Report} {storage : Storage} {context : Filter.Context} {clock : Int}
    {r : Request} (made : Request.new report storage context clock = .ok r) : r.query = none := by
  unfold Request.new at made
  dsimp only at made
  split at made
  · cases made
  · cases given : report.filters { context with tablePrefix := ({} : Settings).tablePrefix } with
    | error e =>
      rw [given] at made
      cases made
    | ok filters =>
      rw [given] at made
      cases made
      rfl

/-- In every run, the query that a request gives was put together from filters that differ from the
present ones in loaded options only, and so was the query whose statement a report asks. -/
theorem getQuery_coherent (report : Report) (storage : Storage)
    (context : Filter.Context) (clock : Int) {r : Request}
    (made : Request.new report storage context clock = .ok r) (s : Session)
    (ops : List Operation) :
    let t := (Trace.start r s).run ops
    (∀ q r' s', getQuery t.request t.session = ((.ok q, r'), s') →
      ∃ before after, (t.step .getQuery).Serves s.drawn q before after) ∧
    (t.request.preferences.isSome = true →
      match dataStatement t.request t.session with
      | ((.error e, _), _) => (getData t.request t.session).1.1 = .error e
      | ((.ok (page, statement), _), _) =>
        ∃ q before after n m bound, (t.step .getData).Serves s.drawn q before after ∧
          after.drawn ≤ n ∧ (atPage q page).render t.request.dialect n = (.ok statement, m) ∧
            ⟨statement, bound⟩ ∈ (t.step .getData).session.calls) := by
  intro t
  have fresh := query_new made
  have kept : t.Kept s.drawn := Trace.kept_run (Trace.kept_start fresh s) ops
  refine ⟨fun q r' s' got => ?_, fun configured => ?_⟩
  · have later := Trace.kept_step kept .getQuery
    have held : (t.step .getQuery).request.query = some q := by
      have there : (t.step .getQuery).request = r' := congrArg (fun x => x.1.2) got
      rw [there, query_of_getQuery got]
    obtain ⟨before, after, holds⟩ := later.query q held
    exact ⟨before, after, Trace.serves_of_holds later holds⟩
  · have whole := getData_eq configured t.session
    rcases asked : dataStatement t.request t.session
      with ⟨⟨e | ⟨page, statement⟩, r₂⟩, s₂⟩
    · rw [whole, bind_error _ asked]
    · rw [bind_ok _ asked] at whole
      obtain ⟨c, s₁, q, s', m, loaded, grows, reads, held, past, rendered⟩ :=
        dataStatement_ok asked
      obtain ⟨bound, mem⟩ := mem_calls_present t.request r₂ page statement s₂
      -- The query was kept before the statement went out, and showing the rows only reads.
      have moment := Trace.kept_advanced kept loaded grows reads
      obtain ⟨before, after, holds⟩ := moment.query q held
      have rest :=
        (Reads.of_extends past).trans (reading_present t.request page statement r₂ s₂)
      have final := holds.read rest
      have step : t.step .getData = ⟨(present t.request page statement r₂ s₂).1.2,
          (present t.request page statement r₂ s₂).2, (t.moved (r₂, s')).basis⟩ := by
        change t.moved ((getData t.request t.session).1.2, (getData t.request t.session).2) = _
        rw [whole, Trace.moved, Trace.moved, rest.filters, rest.query_of_held held, held]
      refine ⟨q, before, after, s'.drawn, m, bound, ?_, holds.past, rendered, ?_⟩
      · exact Trace.serves_of_holds (Trace.kept_step kept .getData) (step ▸ final)
      · rw [step]
        exact mem

def items : Report where
  name := "items"
  template := Query.empty.readFrom "items" "i"
  fields := [(Field.new "id" (some "i.id") "ID").withAttribute .identifier]
  filters := fun ctx => (Filter.Collection.new "items" ctx).addAll
    [(Filter.new "category" "i.category").withHandler
      (.select (.new (.query ⟨"SELECT c.id FROM \x7bcategories\x7d c", ∅⟩) .expandOptions))]

def oneRow : Storage where
  dialect := .sqlite
  answer := fun _ _ => .ok [.ofList [("id", .ofInt 7)]]

/-- A request for items that has put its query together and loaded the options after that. -/
def loadedLate (r : Request) : Trace := (Trace.start r {}).run [.getQuery, .init]

/-- The query that is given does not restrict anything; one put together anew would. -/
theorem getQuery_coherent_items :
    ∃ r, Request.new items oneRow { userId := 1 } 0 = .ok r ∧
      ∃ q r' s' q' later,
        getQuery (loadedLate r).request (loadedLate r).session = ((.ok q, r'), s') ∧
          (loadedLate r).request.buildQuery (loadedLate r).session = (.ok q', later) ∧
            q.rawWhere.length = 0 ∧ q'.rawWhere.length = 1 ∧
              ∃ before after, ((loadedLate r).step .getQuery).Serves 0 q before after := by
  have lengths : (Request.new items oneRow { userId := 1 } 0).toOption.map (fun r =>
      ((getQuery (loadedLate r).request (loadedLate r).session).1.1.toOption.map
        (·.rawWhere.length),
        ((loadedLate r).request.buildQuery (loadedLate r).session).1.toOption.map
        (·.rawWhere.length))) =
      some (some 0, some 1) := by
    decide +kernel
  rcases made : Request.new items oneRow { userId := 1 } 0 with e | r
  · rw [made] at lengths
    cases lengths
  · rw [made] at lengths
    have both := Option.some.inj lengths
    rw [Prod.mk.injEq] at both
    obtain ⟨stale, fresh⟩ := both
    rcases got : getQuery (loadedLate r).request (loadedLate r).session
      with ⟨⟨e | q, r'⟩, s'⟩
    · rw [got] at stale
      cases stale
    · rcases built : (loadedLate r).request.buildQuery
        (loadedLate r).session with ⟨e | q', later⟩
      · rw [built] at fresh
        cases fresh
      · rw [got] at stale
        rw [built] at fresh
        obtain ⟨serves, -⟩ :=
          getQuery_coherent items oneRow { userId := 1 } 0 made {} [.getQuery, .init]
        exact ⟨r, rfl, q, r', s', q', later, got, built, Option.some.inj stale,
          Option.some.inj fresh, serves q r' s' got⟩

end Request

end Reports
