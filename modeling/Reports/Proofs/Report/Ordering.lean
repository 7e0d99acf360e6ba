import Reports.Proofs.Report.Coherence
import Reports.Proofs.Report.Display
import Reports.Proofs.Report.Variants

/-! What the rows of a report are sorted by. The name in a request is looked up among the fields
that are displayed; what goes into the query is the expression of the field that was found. -/
namespace Reports

open Sql (Query Direction)

namespace Sql.Query

def orderedBy (q : Query) : Option (String × Direction) → Query
  | some (expr, direction) => q.order expr direction
  | none => q

theorem spares_orderedBy (sort : Option (String × Direction)) : Spares (·.orderedBy sort) := by
  cases sort <;> exact ⟨fun _ => rfl, fun _ => rfl, fun _ _ => rfl⟩

theorem updated_orderedBy (q : Query) (sort : Option (String × Direction)) :
    q.orderBy.Updated sort (q.orderedBy sort).orderBy := by
  cases sort with
  | none => rfl
  | some entry => exact OrderedMap.written_insert q.orderBy entry.1 entry.2

end Sql.Query

namespace Request

def Displays (r : Request) (f : Field) : Prop :=
  f ∈ r.fields ∧ match r.preferences with
    | some p => p.Shows f
    | none => f.isIdentifier = true ∨ f.visibility = .visible

/-- A displayed field has this name and can be sorted by, namely by this expression. -/
def Sorts (r : Request) (name expr : String) : Prop :=
  ∃ f, r.Displays f ∧ f.name = name ∧ f.sortable = true ∧ f.sortExpression? = some expr

inductive SortedBy (r : Request) : Option (String × Direction) → Prop
  | requested {name expr : String} {direction : Direction} (asked : r.sort = some (name, direction))
      (sorts : r.Sorts name expr) : SortedBy r (some (expr, direction))
  | default {p : Preferences} {name expr : String}
      (refused : ∀ asked, r.sort = some asked → ∀ e, ¬r.Sorts asked.1 e)
      (configured : r.preferences = some p) (chosen : p.defaultSort = some name)
      (sorts : r.Sorts name expr) : SortedBy r (some (expr, p.defaultDirection))
  | unsorted (refused : ∀ asked, r.sort = some asked → ∀ e, ¬r.Sorts asked.1 e)
      (none : ∀ p name, r.preferences = some p → p.defaultSort = some name →
        ∀ e, ¬r.Sorts name e) :
      SortedBy r .none

theorem mem_displayFields_iff (r : Request) (f : Field) : f ∈ r.displayFields ↔
    r.Displays f := by
  unfold Displays
  cases configured : r.preferences with
  | some p => exact mem_displayFields configured f
  | none =>
    have shown : f.isVisible = true ↔ f.isIdentifier = true ∨ f.visibility = .visible := by
      cases visibility : f.visibility <;> simp [Field.isVisible, Field.isHidden, visibility]
    rw [displayFields, configured, ← shown, List.mem_append, List.mem_filter, List.mem_filter,
      List.mem_filter]
    cases f.isIdentifier <;> simp

theorem sortableExpr?_iff {r : Request} (distinct : (r.fields.map (·.name)).Nodup)
    (name expr : String) :
    sortableExpr? r.displayFields name = some expr ↔ r.Sorts name expr := by
  have once := nodup_displayFields distinct
  have found {f : Field} : (f.name == name && f.isSortable) = true ↔
      f.name = name ∧ f.sortable = true ∧ f.sortExpression?.isSome = true := by
    rw [Bool.and_eq_true, beq_iff_eq, Field.isSortable, Bool.and_eq_true]
  unfold sortableExpr?
  constructor
  · intro sorts
    split at sorts
    · next f first =>
      have holds := List.find?_some first
      obtain ⟨named, sortable, -⟩ := found.mp holds
      exact ⟨f, (r.mem_displayFields_iff f).mp (List.mem_of_find?_eq_some first), named,
        sortable, sorts⟩
    · cases sorts
  · rintro ⟨f, displays, named, sortable, sorts⟩
    have mem := (r.mem_displayFields_iff f).mpr displays
    have here := found.mpr ⟨named, sortable, Option.isSome_of_eq_some sorts⟩
    cases first : r.displayFields.find? fun f => f.name == name && f.isSortable with
    | none => exact absurd here (List.find?_eq_none.mp first f mem)
    | some g =>
      have holds := List.find?_some first
      have same := (found.mp holds).1.trans named.symm
      rw [List.inj_on_of_nodup_map once (List.mem_of_find?_eq_some first) mem same]
      exact sorts

theorem sortableExpr?_none {r : Request} (distinct : (r.fields.map (·.name)).Nodup)
    (name : String) :
    sortableExpr? r.displayFields name = none ↔ ∀ expr, ¬r.Sorts name expr := by
  rw [Option.eq_none_iff_forall_ne_some]
  exact forall_congr' fun expr => (sortableExpr?_iff distinct name expr).not

theorem sortedBy_resolveSort {r : Request} (distinct : (r.fields.map (·.name)).Nodup) :
    r.SortedBy (r.resolveSort r.displayFields) := by
  have known (name expr) := (sortableExpr?_iff distinct name expr).mp
  have unknown (name) := (sortableExpr?_none distinct name).mp
  have fallback (refused : ∀ asked, r.sort = some asked →
    ∀ e, ¬r.Sorts asked.1 e) : r.SortedBy (do
      let p ← r.preferences
      let name ← p.defaultSort
      let expr ← sortableExpr? r.displayFields name
      return (expr, p.defaultDirection)) := by
    rcases configured : r.preferences with _ | p
    · exact .unsorted refused fun p name other => nomatch configured.symm.trans other
    rcases chosen : p.defaultSort with _ | name
    · simp only [Option.bind_eq_bind, Option.bind_some, chosen, Option.bind_none]
      refine .unsorted refused fun p' name other chosen' => ?_
      cases configured.symm.trans other
      cases chosen.symm.trans chosen'
    rcases sorts : sortableExpr? r.displayFields name with _ | expr
    · simp only [Option.bind_eq_bind, Option.bind_some, chosen, sorts, Option.bind_none]
      refine .unsorted refused fun p' name' other chosen' => ?_
      cases configured.symm.trans other
      cases chosen.symm.trans chosen'
      exact unknown name sorts
    · simp only [Option.bind_eq_bind, Option.bind_some, chosen, sorts]
      exact .default refused configured chosen (known name expr sorts)
  unfold resolveSort
  split
  · next name direction asked =>
    split
    · next expr sorts => exact .requested asked (known name expr sorts)
    · next none =>
      refine fallback fun other asked' => ?_
      cases asked.symm.trans asked'
      exact unknown name none
  · next none => exact fallback fun other asked => nomatch none.symm.trans asked

theorem Sorts.unique {r : Request} (distinct : (r.fields.map (·.name)).Nodup)
    {name expr expr' : String} (sorts : r.Sorts name expr) (sorts' : r.Sorts name expr') :
    expr = expr' := by
  have first := (sortableExpr?_iff distinct name expr).mpr sorts
  exact Option.some.inj (first.symm.trans ((sortableExpr?_iff distinct name expr').mpr sorts'))

theorem SortedBy.unique {r : Request} (distinct : (r.fields.map (·.name)).Nodup)
    {sort sort' : Option (String × Direction)} (first : r.SortedBy sort)
    (second : r.SortedBy sort') :
    sort = sort' := by
  cases first with
  | requested asked sorts =>
    cases second with
    | requested asked' sorts' =>
      cases asked.symm.trans asked'
      rw [sorts.unique distinct sorts']
    | default refused => exact absurd sorts (refused _ asked _)
    | unsorted refused => exact absurd sorts (refused _ asked _)
  | default refused configured chosen sorts =>
    cases second with
    | requested asked sorts' => exact absurd sorts' (refused _ asked _)
    | default _ configured' chosen' sorts' =>
      cases configured.symm.trans configured'
      cases chosen.symm.trans chosen'
      rw [sorts.unique distinct sorts']
    | unsorted _ none => exact absurd sorts (none _ _ configured chosen _)
  | unsorted refused none =>
    cases second with
    | requested asked sorts => exact absurd sorts (refused _ asked _)
    | default _ configured chosen sorts => exact absurd sorts (none _ _ configured chosen _)
    | unsorted => rfl

def unsorted (r : Request) : Request :=
  { r with sort := none, preferences := r.preferences.map fun p => { p with defaultSort := none } }

theorem displayFields_unsorted (r : Request) : r.unsorted.displayFields = r.displayFields := by
  unfold displayFields unsorted
  cases r.preferences <;> rfl

theorem resolveSort_unsorted (r : Request) (display : List Field) :
    r.unsorted.resolveSort display = none := by
  unfold resolveSort unsorted
  cases r.preferences <;> rfl

theorem layout_unsorted (r : Request) : r.unsorted.layout = r.layout := by
  unfold layout unsorted
  cases r.preferences <;> rfl

theorem perPage_unsorted (r : Request) : r.unsorted.perPage = r.perPage := by
  unfold perPage requestedPerPage unsorted
  cases r.preferences <;> rfl

theorem base_eq_orderedBy (r : Request) :
    r.base = r.unsorted.base.map (·.orderedBy (r.resolveSort r.displayFields)) := by
  have fields : r.unsorted.fields = r.fields := rfl
  have dialect : r.unsorted.dialect = r.dialect := rfl
  have settings : r.unsorted.settings = r.settings := rfl
  have report : r.unsorted.report = r.report := rfl
  have page : r.unsorted.page = r.page := rfl
  simp only [base, arrange, displayFields_unsorted, resolveSort_unsorted, layout_unsorted,
    perPage_unsorted, fields, dialect, settings, report, page]
  cases identityParts (r.fields.filter (·.isIdentifier)) with
  | error e => rfl
  | ok parts =>
    simp only [bind, Except.bind]
    cases r.resolveSort r.displayFields <;> by_cases paginated : r.layout.isPaginated = true <;>
      simp only [paginated, if_true, Bool.false_eq_true, if_false] <;> rfl

theorem orderBy_selectFields (q : Query) (fs : List Field) :
    (selectFields q fs).orderBy = q.orderBy := by
  obtain ⟨selects, same⟩ := selectFields_eq q fs
  rw [same]

theorem orderBy_unsorted {r : Request} {q : Query} (base : r.unsorted.base = .ok q) :
    q.orderBy = r.report.template.orderBy := by
  have trivially : Filter.CollectionSql.effect ⟨.ofParts [], .ofParts []⟩ = ([], []) := rfl
  have selected (q : Query) (expr column : String) : (q.select expr column).orderBy = q.orderBy :=
    rfl
  have paged (q : Query) (a b : UInt64) : ((q.setOffset a).setLimit b).orderBy = q.orderBy := rfl
  have template : (r.report.template.setPrefix r.settings.tablePrefix).orderBy =
      r.report.template.orderBy := rfl
  simp only [Request.base, arrange, restrict_eq, trivially, Query.restricted_nil,
    resolveSort_unsorted] at base
  obtain ⟨exprs, -, arranged⟩ := Effect.ok_of_bind base
  split at arranged <;> cases arranged <;> split <;>
    simp only [paged, orderBy_selectFields, selected] <;> exact template

theorem outcome_orderedBy (r : Request) (s : Session) :
    r.outcome s = ((r.unsorted.outcome s).1.map (·.orderedBy (r.resolveSort r.displayFields)),
      (r.unsorted.outcome s).2) :=
  outcome_map r r.unsorted (Query.spares_orderedBy _) rfl rfl r.base_eq_orderedBy s

theorem orderBy_of_buildQuery {r : Request} {s s' : Session} {q : Query}
    (built : r.buildQuery s = (.ok q, s')) :
    r.report.template.orderBy.Updated (r.resolveSort r.displayFields) q.orderBy := by
  obtain ⟨x, m, q₀, whole, -, base, rfl, -⟩ := render_of_buildQuery built
  rw [base_eq_orderedBy] at base
  cases plain : r.unsorted.base with
  | error e =>
    rw [plain] at base
    cases base
  | ok q₁ =>
    rw [plain] at base
    cases base
    have updated := q₁.updated_orderedBy (r.resolveSort r.displayFields)
    rwa [orderBy_unsorted plain] at updated

/-- Settings and filters may change; the report and the names of its fields do not. -/
structure Declares (report : Report) (r : Request) : Prop where
  report : r.report = report
  distinct : (r.fields.map (·.name)).Nodup

theorem Declares.read {report : Report} {r r' : Request} {s s' : Session}
    (declares : Declares report r) (reads : Reads r s r' s') : Declares report r' := by
  have fields : r'.inputs.fields = r.inputs.fields := congrArg Request.fields reads.inputs
  have reports : r'.inputs.report = r.inputs.report := congrArg Request.report reads.inputs
  have names : (r'.fields.map (·.name)).Nodup := by
    change r'.fields = r.fields at fields
    rw [fields]
    exact declares.distinct
  exact ⟨reports.trans declares.report, names⟩

theorem Declares.step {report : Report} {t : Trace} (declares : Declares report t.request)
    (op : Operation) :
    Declares report (t.step op).request := by
  have reading {α : Type} {x : RequestAction α} (reads : Reading x) :
      Declares report (x t.request t.session).1.2 := declares.read (reads t.request t.session)
  have kept (r : Request) (reports : r.report = t.request.report)
    (fields : r.fields = t.request.fields) :
      Declares report r := ⟨reports.trans declares.report, fields ▸ declares.distinct⟩
  cases op with
  | withFilters filters => exact kept _ rfl rfl
  | withPreferences preferences => exact kept _ rfl rfl
  | withLayout layout => exact kept _ rfl rfl
  | withPage page => exact kept _ rfl rfl
  | withSort field direction => exact kept _ rfl rfl
  | withSettings settings =>
    refine ⟨declares.report, ?_⟩
    change ((t.request.fields.map (·.setTablePrefix settings.tablePrefix)).map (·.name)).Nodup
    rw [List.map_map]
    exact declares.distinct
  | applyFilter name value =>
    change Declares report (applyFilter name value t.request t.session).1.2
    unfold applyFilter
    split <;> exact kept _ rfl rfl
  | init =>
    exact kept _ rfl rfl
  | getQuery => exact reading .getQuery
  | count unique => exact reading (.count unique)
  | pageInfo => exact reading .pageInfo
  | getData =>
    obtain ⟨c, s, -, -, reads⟩ := getData_loaded t.request t.session
    have loaded : Declares report { t.request with filters := c } := kept _ rfl rfl
    exact loaded.read reads

theorem Declares.run {report : Report} {t : Trace} (declares : Declares report t.request)
    (ops : List Operation) : Declares report (t.run ops).request := by
  induction ops generalizing t with
  | nil => exact declares
  | cons op rest ih => exact ih (declares.step op)

theorem declares_new {report : Report} {storage : Storage} {context : Filter.Context} {clock : Int}
    {r : Request} (made : Request.new report storage context clock = .ok r) :
    Declares report r := by
  refine ⟨?_, nodup_of_new made⟩
  unfold Request.new at made
  dsimp only at made
  split at made
  · cases made
  · obtain ⟨filters, -, last⟩ := Effect.ok_of_bind made
    cases last
    rfl

theorem SortedBy.sorts {r : Request} {expr : String} {direction : Direction}
    (sorted : r.SortedBy (some (expr, direction))) : ∃ name, r.Sorts name expr := by
  cases sorted with
  | requested _ sorts => exact ⟨_, sorts⟩
  | default _ _ _ sorts => exact ⟨_, sorts⟩

def unrequested (r : Request) : Request := { r with sort := none }

theorem outcome_requested {r : Request} (distinct : (r.fields.map (·.name)).Nodup)
    {name expr : String} (sorts : r.Sorts name expr) (direction : Direction) (s : Session) :
    (r.withSort name direction).outcome s =
      ((r.unsorted.outcome s).1.map (·.order expr direction), (r.unsorted.outcome s).2) := by
  have distinct' : ((r.withSort name direction).fields.map (·.name)).Nodup := distinct
  have requested : (r.withSort name direction).SortedBy (some (expr, direction)) :=
    .requested rfl sorts
  have same := (sortedBy_resolveSort distinct').unique distinct' requested
  rw [outcome_orderedBy (r.withSort name direction), same]
  rfl

theorem outcome_refused {r : Request} (distinct : (r.fields.map (·.name)).Nodup) {name : String}
    (refused : ∀ expr, ¬r.Sorts name expr) (direction : Direction) (s : Session) :
    (r.withSort name direction).outcome s = r.unrequested.outcome s := by
  have none := (sortableExpr?_none distinct name).mpr refused
  have same : (r.withSort name direction).resolveSort r.displayFields =
      r.unrequested.resolveSort r.displayFields := by
    simp only [resolveSort, withSort, unrequested, none]
  have display : (r.withSort name direction).displayFields = r.displayFields := rfl
  have display' : r.unrequested.displayFields = r.displayFields := rfl
  rw [outcome_orderedBy (r.withSort name direction), outcome_orderedBy r.unrequested, display,
    display', same]
  rfl

/-- A request adds at most one entry to the order of the report's template, or changes the direction
of one. The expression belongs to a displayed field that can be sorted by: the one that is asked
for, or else the one in the preferences. A name that no such field has is ignored, whatever it
is. -/
theorem order_of_buildQuery (report : Report) (storage : Storage)
    (context : Filter.Context) (clock : Int) {r : Request}
    (made : Request.new report storage context clock = .ok r) (s : Session)
    (ops : List Operation) :
    let t := ((Trace.start r s).run ops).request
    ∃ sort, (∀ other, t.SortedBy other ↔ other = sort) ∧ ∀ now : Session,
      t.outcome now = ((t.unsorted.outcome now).1.map (·.orderedBy sort),
        (t.unsorted.outcome now).2) ∧
      (∀ q later, t.buildQuery now = (.ok q, later) →
        report.template.orderBy.Updated sort q.orderBy ∧ ∀ e ∈ q.orderBy.entries,
        e ∈ report.template.orderBy.entries ∨ ∃ name, t.Sorts name e.1) ∧
      ∀ name direction,
        (∀ expr, t.Sorts name expr → (t.withSort name direction).outcome now =
          ((t.unsorted.outcome now).1.map (·.order expr direction),
            (t.unsorted.outcome now).2)) ∧
        ((∀ expr, ¬t.Sorts name expr) →
          (t.withSort name direction).outcome now = t.unrequested.outcome now) := by
  intro t
  have declares : Declares report t := (declares_new made).run ops
  have sorted := sortedBy_resolveSort declares.distinct
  refine ⟨t.resolveSort t.displayFields, fun other =>
    ⟨fun by' => by'.unique declares.distinct sorted, ?_⟩, ?_⟩
  · rintro rfl
    exact sorted
  intro now
  refine ⟨t.outcome_orderedBy now, fun q later built => ?_, fun name direction =>
    ⟨fun expr sorts => outcome_requested declares.distinct sorts direction now,
      fun refused => outcome_refused declares.distinct refused direction now⟩⟩
  have updated := orderBy_of_buildQuery built
  rw [declares.report] at updated
  refine ⟨updated, fun e mem => ?_⟩
  cases sort : t.resolveSort t.displayFields with
  | none =>
    rw [sort] at updated
    exact .inl (updated ▸ mem)
  | some entry =>
    rw [sort] at updated sorted
    rcases OrderedMap.Written.mem_entries updated mem with rfl | kept
    · exact .inr sorted.sorts
    · exact .inl kept

def marks : Report where
  name := "marks"
  template := (Query.empty.readFrom "mark" "m").order "m.name" .asc
  fields := [(Field.new "id" (some "m.id") "ID").withAttribute .identifier,
    Field.new "name" (some "m.name") "Name",
    { Field.new "grade" (some "m.grade") "Grade" with sortSelect := some "m.points" },
    (Field.new "note" (some "m.note") "Note").setHidden true]
  filters := fun ctx => .ok (.new "marks" ctx)

def byGrade : Preferences := { defaultSort := some "grade", defaultDirection := .desc }

def marksByName : Request where
  report := marks
  storage := oneRow
  preferences := some byGrade
  sort := some ("name", .desc)
  fields := marks.fields
  filters := .new "marks" { userId := 7 }

theorem displayFields_marks :
    marksByName.displayFields = [marks.fields[0], marks.fields[1], marks.fields[2]] := by
  cbv

theorem orderBy_marks :
    (marksByName.unsorted.outcome {}).1.toOption.map (·.orderBy) =
      some ⟨[("m.name", .asc)]⟩ := by
  simp only [outcome_eq, base, arrange, displayFields_unsorted, displayFields_marks]
  decide +kernel

theorem order_of_buildQuery_marks : ∃ r, Request.new marks oneRow { userId := 7 } 0 = .ok r ∧
    let t := ((Trace.start r {}).run [.withPreferences byGrade, .withSort "name" .desc]).request
    t.SortedBy (some ("m.name", .desc)) ∧
    (∃ q later, t.buildQuery {} = (.ok q, later) ∧ q.orderBy = ⟨[("m.name", .desc)]⟩) ∧
    (t.withSort "note; --" .asc).outcome {} = t.unrequested.outcome {} := by
  obtain ⟨sort, only, confined⟩ := order_of_buildQuery marks oneRow { userId := 7 } 0 rfl {}
    [.withPreferences byGrade, .withSort "name" .desc]
  have sorts : marksByName.Sorts "name" "m.name" :=
    ⟨marks.fields[1], ⟨List.mem_of_getElem? (i := 1) rfl, .inr (.inl ⟨rfl, rfl⟩)⟩,
      rfl, rfl, rfl⟩
  have refused : ∀ expr, ¬marksByName.Sorts "note; --" expr := by
    apply (sortableExpr?_none (by decide +kernel) _).mp
    rw [displayFields_marks]
    decide +kernel
  have requested : marksByName.SortedBy (some ("m.name", .desc)) := .requested rfl sorts
  obtain rfl := (only _).mp requested
  obtain ⟨ordered, -, others⟩ := confined {}
  refine ⟨_, rfl, requested, ?_, (others "note; --" .asc).2 refused⟩
  change marksByName.outcome {} = ((marksByName.unsorted.outcome {}).1.map _, _) at ordered
  have plain := orderBy_marks
  rcases unsorted : (marksByName.unsorted.outcome {}).1 with e | q <;>
    rw [unsorted] at plain ordered
  · cases plain
  · rw [outcome, Prod.mk.injEq] at ordered
    have template : q.orderBy = ⟨[("m.name", .asc)]⟩ := Option.some.inj plain
    refine ⟨q.order "m.name" .desc, (marksByName.buildQuery {}).2, Prod.ext ordered.1 rfl, ?_⟩
    change q.orderBy.insert "m.name" .desc = _
    rw [template]
    rfl

end Request

end Reports
