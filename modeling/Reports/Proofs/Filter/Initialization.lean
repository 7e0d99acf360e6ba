import Reports.Proofs.Report.Stages

/-! Preparing filters again after a failure. What an attempt loaded before it failed leaves no trace
once another one succeeds. -/
namespace Reports.Filter

open Sql (Statement)

/-- The options that rows give: the first column as value, the text of the second as label, or that
of the value where there is no second. A row without columns gives none. -/
inductive Gives : List Row → List Choice → Prop
  | nil : Gives [] []
  | blank {row : Row} {rows : List Row} {options : List Choice} : row.values = [] →
    Gives rows options → Gives (row :: rows) options
  | bare {row : Row} {value : Json} {rows : List Row}
    {options : List Choice} : row.values = [value] → Gives rows options →
    Gives (row :: rows) (⟨value, value.plain⟩ :: options)
  | labelled {row : Row} {value label : Json} {more : List Json} {rows : List Row}
    {options : List Choice} : row.values = value :: label :: more →
      Gives rows options → Gives (row :: rows) (⟨value, label.plain⟩ :: options)

theorem gives_optionOfRow (rows : List Row) :
    Gives rows (rows.filterMap Selection.optionOfRow) := by
  induction rows with
  | nil => exact .nil
  | cons row rest ih =>
    rcases values : row.values with _ | ⟨value, _ | ⟨label, more⟩⟩
    · rw [List.filterMap_cons_none (by rw [Selection.optionOfRow, values])]
      exact .blank values ih
    · rw [List.filterMap_cons_some (by rw [Selection.optionOfRow, values])]
      exact .bare values ih
    · rw [List.filterMap_cons_some (by rw [Selection.optionOfRow, values])]
      exact .labelled values ih

/-- How filters are prepared, with what is asked and answered: one after the other up to the first
failure, and what follows that stays as it is. -/
inductive Loading (ctx : Context) :
    List Filter → List Exchange → Except Error Unit → List Filter → Prop
  | nil : Loading ctx [] [] (.ok ()) []
  | other {f : Filter} {fs gs : List Filter} {xs : List Exchange} {result : Except Error Unit} :
    f.optionStatement? ctx = none → Loading ctx fs xs result gs →
      Loading ctx (f :: fs) xs result (f :: gs)
  | failed {f : Filter} {fs : List Filter} {x : Statement} {e : Error} :
    f.optionStatement? ctx = some x →
    Loading ctx (f :: fs) [⟨x, .error e⟩] (.error e) (f :: fs)
  | choice {f : Filter} {s : Selection} {fs gs : List Filter} {x : Statement} {rows : List Row}
    {options : List Choice} {xs : List Exchange} {result : Except Error Unit} :
    f.optionStatement? ctx = some x → f.handler = .select s → Gives rows options →
      Loading ctx fs xs result gs →
        Loading ctx (f :: fs) (⟨x, .ok rows⟩ :: xs) result
          ({ f with handler := .select { s with options } } :: gs)

variable {ctx : Context} {st : Storage} {f g : Filter} {fs gs hs : List Filter} {xs : List Exchange}

theorem Loading.asked {result : Except Error Unit} (loading : Loading ctx fs xs result gs) :
    Asked (fs.filterMap (optionStatement? ctx)) xs result := by
  induction loading with
  | nil => exact .nil
  | other none _ ih =>
    rw [List.filterMap_cons_none none]
    exact ih
  | failed some =>
    rw [List.filterMap_cons_some some]
    exact .failed
  | choice some _ _ _ ih =>
    rw [List.filterMap_cons_some some]
    exact .answered ih

theorem optionStatement?_eq_some {x : Statement} : f.optionStatement? ctx = some x ↔
    ∃ s q, f.handler = .select s ∧ s.source = .query q ∧
      x = { q with sql := Sql.TableRef.expand q.sql ctx.tablePrefix } := by
  unfold optionStatement?
  constructor
  · intro some
    split at some
    · next s handler =>
      split at some
      · next q source => exact ⟨s, q, handler, source, (Option.some.inj some).symm⟩
      · cases some
    · cases some
  · rintro ⟨s, q, handler, source, rfl⟩
    simp [handler, source]

theorem Reloaded.optionStatement? (reloaded : f.Reloaded g) :
    g.optionStatement? ctx = f.optionStatement? ctx := by
  cases reloaded with
  | same => rfl
  | options options handler source => simp [Filter.optionStatement?, handler, source]

theorem Reloaded.eq_of_none (reloaded : f.Reloaded g) (none : g.optionStatement? ctx = none) :
    g = f := by
  cases reloaded with
  | same => rfl
  | options options handler source => simp [Filter.optionStatement?, source] at none

theorem Loading.of_reloaded (reloaded : List.Forall₂ Reloaded fs gs)
    (loading : Loading ctx gs xs (.ok ()) hs) : Loading ctx fs xs (.ok ()) hs := by
  generalize done : Except.ok () = result at loading
  -- Only options differ, and without a failure all of them are replaced.
  induction loading generalizing fs with
  | nil =>
    cases reloaded
    exact .nil
  | other none _ ih =>
    cases reloaded with
    | cons here rest =>
      obtain rfl := here.eq_of_none none
      exact .other none (ih rest done)
  | failed => cases done
  | choice some handler gives _ ih =>
    cases reloaded with
    | cons here rest =>
      rw [here.optionStatement?] at some
      cases here with
      | same => exact .choice some handler gives (ih rest done)
      | @options s _ old handler' _ =>
        cases handler
        exact .choice (s := s) some handler' gives (ih rest done)

namespace Collection

theorem initFilter_of_rows {s : Selection} {q : Statement} (handler : f.handler = .select s)
    (source : s.source = .query q) {session session' : Session} {rows : List Row}
    (fetched : st.fetch { q with sql := Sql.TableRef.expand q.sql ctx.tablePrefix } session =
      (.ok rows, session')) :
    (initFilter st ctx f session).1 =
      .ok { f with
        handler := .select { s with options := rows.filterMap Selection.optionOfRow } } := by
  simp only [initFilter, handler, source]
  rw [Effect.bind_ok _ fetched]
  rfl

theorem loading_initFilters (st : Storage) (ctx : Context) (fs : List Filter) (s : Session) :
    ∃ xs, s.Converses st xs (initFilters st ctx fs s).2 ∧
      Loading ctx fs xs (initFilters st ctx fs s).1.1 (initFilters st ctx fs s).1.2 := by
  induction fs generalizing s with
  | nil => exact ⟨[], .of_silent (.refl s), .nil⟩
  | cons f rest ih =>
    rw [initFilters_cons]
    cases statement : f.optionStatement? ctx with
    | none =>
      rw [initFilter_of_none statement]
      obtain ⟨xs, converses, later⟩ := ih s
      exact ⟨xs, converses, .other statement later⟩
    | some x =>
      rcases fetched : st.fetch x s with ⟨reply, s₁⟩
      have asked := Action.converses_of_fetch fetched
      obtain ⟨silent, outcome⟩ := initFilter_of_some statement fetched
      cases reply with
      | error e =>
        rcases loaded : initFilter st ctx f s with ⟨result, s₂⟩
        rw [loaded] at silent outcome
        cases outcome
        exact ⟨_, asked.after silent, .failed statement⟩
      | ok rows =>
        obtain ⟨selection, q, handler, source, rfl⟩ := optionStatement?_eq_some.mp statement
        have given := initFilter_of_rows handler source fetched
        rcases loaded : initFilter st ctx f s with ⟨result, s₂⟩
        rw [loaded] at silent given
        cases given
        obtain ⟨xs, converses, later⟩ := ih s₂
        exact ⟨_, (asked.after silent).trans converses,
          .choice statement handler (gives_optionOfRow rows) later⟩

theorem init_of_initialized {c : Collection} (initialized : c.initialized = true) (st : Storage)
    (s : Session) : c.init st s = ((.ok (), c), s) := by
  rw [init, if_pos initialized]
  rfl

/-- The second collection is what attempts to prepare the first one left, which all failed. -/
inductive Retried (c : Collection) : Collection → Prop
  | start : Retried c c
  | failed {c' : Collection} (st : Storage) (s : Session) : Retried c c' →
    (c'.init st s).1.1.isOk = false → Retried c (c'.init st s).1.2

variable {c c' : Collection}

theorem initialized_init (c : Collection) (st : Storage) (s : Session) :
    (c.init st s).1.2.initialized = (c.init st s).1.1.isOk := by
  by_cases initialized : c.initialized = true
  · rw [init_of_initialized initialized]
    exact initialized
  · rw [init_of_fresh initialized]
    rcases initFilters st c.context c.filters s with ⟨⟨e | _, fs⟩, s'⟩
    · exact Bool.eq_false_iff.mpr initialized
    · rfl

theorem Retried.loadedInto (retried : c.Retried c') : c.LoadedInto c' := by
  induction retried with
  | start => exact .refl c
  | failed st s _ _ ih => exact ih.trans (init_loadedInto _ st s).2

theorem Retried.initialized (retried : c.Retried c') : c'.initialized = c.initialized := by
  induction retried with
  | start => rfl
  | @failed c' st s _ failed ih =>
    have fresh : c'.initialized = false := by
      by_contra initialized
      rw [init_of_initialized (by simpa using initialized)] at failed
      cases failed
    rw [← ih, initialized_init, failed, fresh]

theorem Retried.eq_of_initialized (retried : c.Retried c') (initialized : c.initialized = true) :
    c' = c := by
  cases retried with
  | start => rfl
  | failed st s earlier failed =>
    rw [init_of_initialized (earlier.initialized.trans initialized)] at failed
    cases failed

theorem Retried.optionStatements (retried : c.Retried c') :
    c'.optionStatements = c.optionStatements := by
  have loaded := retried.loadedInto
  have same : c'.filters.filterMap (optionStatement? c.context) =
      c.filters.filterMap (optionStatement? c.context) := by
    have filters := loaded.filters
    generalize c.filters = fs, c'.filters = gs at filters
    induction filters with
    | nil => rfl
    | cons here _ ih => simp only [List.filterMap_cons, here.optionStatement?, ih]
  rw [Collection.optionStatements, Collection.optionStatements, retried.initialized,
    loaded.context, same]

theorem loading_init (fresh : c.initialized = false) (st : Storage) (s : Session) :
    ∃ xs, s.Converses st xs (c.init st s).2 ∧
      Loading c.context c.filters xs (c.init st s).1.1 (c.init st s).1.2.filters := by
  obtain ⟨xs, converses, loading⟩ := loading_initFilters st c.context c.filters s
  rw [init_of_fresh (by simp [fresh])]
  rcases outcome : initFilters st c.context c.filters s with ⟨⟨e | _, fs⟩, s'⟩
  · rw [outcome] at converses loading
    exact ⟨xs, converses, loading⟩
  · rw [outcome] at converses loading
    exact ⟨xs, converses.after ⟨rfl, rfl⟩, loading⟩

/-- An attempt asks for all options again, in order and up to the first failure, which it returns.
If none fails, every choice has the options of its own rows, whatever earlier attempts loaded, and
from then on nothing is asked and nothing changes. -/
theorem init_retried (retried : c.Retried c') (st : Storage) (s : Session) :
    let result := (c'.init st s).1.1
    let done := (c'.init st s).1.2
    c.LoadedInto done ∧
    ∃ xs, s.Converses st xs (c'.init st s).2 ∧ Asked c.optionStatements xs result ∧
      match result with
      | .error e =>
        done.initialized = false ∧ Loading c.context c'.filters xs (.error e) done.filters
      | .ok () => done.initialized = true ∧
        (c.initialized = false → Loading c.context c.filters xs (.ok ()) done.filters) ∧
        ∀ st' s', done.init st' s' = ((.ok (), done), s') := by
  intro result done
  refine ⟨retried.loadedInto.trans (init_loadedInto c' st s).2, ?_⟩
  have said : done.initialized = result.isOk := initialized_init c' st s
  by_cases initialized : c.initialized = true
  · obtain rfl := retried.eq_of_initialized initialized
    have silent := init_of_initialized initialized
    refine ⟨[], ?_, ?_, ?_⟩
    · rw [silent]
      exact .of_silent (.refl s)
    · simp only [result, silent, optionStatements, initialized]
      exact .nil
    · simp only [result, done, silent]
      exact ⟨initialized, fun fresh => absurd initialized (by simp [fresh]),
        fun st' s' => trivial⟩
  · have fresh : c'.initialized = false :=
      retried.initialized.trans (Bool.eq_false_iff.mpr initialized)
    obtain ⟨xs, converses, loading⟩ := loading_init fresh st s
    have asked := loading.asked
    refine ⟨xs, converses, ?_, ?_⟩
    · rw [← retried.optionStatements, optionStatements, if_neg (by simp [fresh])]
      exact asked
    · rw [retried.loadedInto.context] at loading
      cases outcome : result with
      | error e =>
        rw [outcome] at said
        rw [show (c'.init st s).1.1 = .error e from outcome] at loading
        exact ⟨said, loading⟩
      | ok _ =>
        rw [outcome] at said
        rw [show (c'.init st s).1.1 = .ok () from outcome] at loading
        exact ⟨said, fun _ => loading.of_reloaded retried.loadedInto.filters,
          fun st' s' => init_of_initialized said st' s'⟩

def search : Collection :=
  { identifier := "search", context := { userId := 7 }
    filters := [(Filter.new "category" "c.category").withHandler
        (.select (.new (.query ⟨"SELECT id, name FROM \x7bcourse_categories\x7d", ∅⟩))),
      (Filter.new "teacher" "c.teacher").withHandler
        (.select (.new (.query ⟨"SELECT userid FROM \x7bteachers\x7d", ∅⟩)))] }

/-- The connection is lost behind the first statement. -/
def unstable : Storage where
  dialect := .sqlite
  answer := fun n _ =>
    if n = 0 then .ok [.ofList [("id", .ofInt 3), ("name", .string "Law")]]
    else .error "connection lost"

def restored : Storage where
  dialect := .sqlite
  answer := fun n _ =>
    .ok (if n = 2 then [∅, .ofList [("id", .ofInt 4), ("name", .string "Arts")]]
      else [.ofList [("userid", .ofInt 9)]])

def offers (c : Collection) : List (List (String × String)) :=
  c.filters.filterMap fun f =>
    match f.handler with
    | .select s => some (s.options.map fun o => (o.value.text, o.label))
    | _ => none

def interrupted : (Except Error Unit × Collection) × Session := search.init unstable {}

def repeated : (Except Error Unit × Collection) × Session :=
  interrupted.1.2.init restored interrupted.2

theorem init_retried_restored :
    search.Retried interrupted.1.2 ∧ interrupted.1.2.offers = [[("3", "Law")], []] ∧
      (∃ xs, interrupted.2.Converses restored xs repeated.2 ∧
        Asked search.optionStatements xs (.ok ()) ∧
        Loading search.context search.filters xs (.ok ()) repeated.1.2.filters) ∧
      repeated.1.2.offers = [[("4", "Arts")], [("9", "9")]] ∧
      ∀ st s, repeated.1.2.init st s = ((.ok (), repeated.1.2), s) := by
  have lost : interrupted.1.1.isOk = false := by decide +kernel
  have done : repeated.1.1.isOk = true := by decide +kernel
  have early : interrupted.1.2.offers = [[("3", "Law")], []] := by decide +kernel
  have late : repeated.1.2.offers = [[("4", "Arts")], [("9", "9")]] := by decide +kernel
  have retried : search.Retried interrupted.1.2 := by
    unfold interrupted at lost ⊢
    exact .failed unstable {} .start lost
  have outcome := init_retried retried restored interrupted.2
  -- What was computed is only known by its properties from here.
  unfold repeated at done late ⊢
  generalize interrupted.1.2.init restored interrupted.2 = second at done late outcome ⊢
  obtain ⟨⟨e | _, c⟩, s⟩ := second
  · cases done
  · obtain ⟨-, xs, converses, asked, -, loading, later⟩ := outcome
    exact ⟨retried, early, ⟨xs, converses, asked, loading rfl⟩, late, later⟩

end Collection

end Reports.Filter
