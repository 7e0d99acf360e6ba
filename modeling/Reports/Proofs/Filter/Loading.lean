import Reports.Filter.Collection
import Reports.Proofs.Session

/-! Loading options: only the options of choices that come from a query change. -/
namespace Reports

/-- The same filter, with other options if a query gives them. -/
inductive Filter.Reloaded : Filter → Filter → Prop
  | same (f : Filter) : Reloaded f f
  | options {f : Filter} {s : Filter.Selection} {q : Sql.Statement} (options : List Filter.Choice) :
    f.handler = .select s → s.source = .query q →
      Reloaded f { f with handler := .select { s with options } }

theorem Filter.Reloaded.trans {f g h : Filter} (first : f.Reloaded g) (second : g.Reloaded h) :
    f.Reloaded h := by
  cases first with
  | same => exact second
  | @options selection q options handler source =>
    cases second with
    | same => exact .options options handler source
    | options options' handler' source' =>
      cases handler'
      exact .options (s := selection) options' handler source

namespace Filter.Collection

structure LoadedInto (c c' : Collection) : Prop where
  identifier : c'.identifier = c.identifier
  context : c'.context = c.context
  filters : List.Forall₂ Reloaded c.filters c'.filters

namespace LoadedInto

theorem refl (c : Collection) : c.LoadedInto c :=
  ⟨rfl, rfl, List.forall₂_same.mpr fun f _ => .same f⟩

theorem trans {c c' c'' : Collection} (h : c.LoadedInto c') (h' : c'.LoadedInto c'') :
    c.LoadedInto c'' := by
  refine ⟨h'.identifier.trans h.identifier, h'.context.trans h.context, ?_⟩
  have later := h'.filters
  generalize c''.filters = hs at later
  have first := h.filters
  generalize c.filters = fs, c'.filters = gs at first later
  induction first generalizing hs with
  | nil =>
    cases later
    exact .nil
  | cons here _ ih =>
    cases later with
    | cons there rest => exact .cons (here.trans there) (ih _ rest)

end LoadedInto

theorem initFilter_reloaded (st : Storage) (ctx : Context) (f : Filter) (s : Session) :
    s.Extends (initFilter st ctx f s).2 ∧
      ∀ g, (initFilter st ctx f s).1 = .ok g → f.Reloaded g := by
  have kept : s.Extends ((pure f : Action Filter) s).2 ∧
      ∀ g, ((pure f : Action Filter) s).1 = .ok g → f.Reloaded g := by
    refine ⟨.refl s, fun g same => ?_⟩
    cases same
    exact .same f
  cases handler : f.handler with
  | select selection =>
    cases source : selection.source with
    | query q =>
      let statement : Sql.Statement := { q with sql := Sql.TableRef.expand q.sql ctx.tablePrefix }
      have grows := (Action.Grows.fetch st statement s).1
      simp only [initFilter, handler, source]
      rcases outcome : st.fetch statement s with ⟨_ | rows, s'⟩
      · rw [outcome] at grows
        rw [Effect.bind_error _ outcome]
        exact ⟨grows, fun g same => (nomatch same)⟩
      · rw [outcome] at grows
        rw [Effect.bind_ok _ outcome]
        refine ⟨grows.trans (Session.Rule.growing.heard s' _), fun g same => ?_⟩
        cases same
        exact source ▸ .options _ handler source
    | fixed options =>
      simp only [initFilter, handler, source]
      exact kept
  | value => simpa only [initFilter, handler] using kept
  | text => simpa only [initFilter, handler] using kept
  | date functions => simpa only [initFilter, handler] using kept
  | condition condition => simpa only [initFilter, handler] using kept

theorem initFilters_cons (st : Storage) (ctx : Context) (f : Filter) (rest : List Filter)
    (s : Session) :
    initFilters st ctx (f :: rest) s =
      match initFilter st ctx f s with
      | (.error e, s') => ((.error e, f :: rest), s')
      | (.ok g, s') =>
        (((initFilters st ctx rest s').1.1, g :: (initFilters st ctx rest s').1.2),
          (initFilters st ctx rest s').2) := by
  rw [initFilters]
  change StateT.bind (initFilter st ctx f) _ s = _
  rw [StateT.bind]
  rcases initFilter st ctx f s with ⟨_ | g, s'⟩ <;> rfl

theorem init_of_fresh {c : Collection} (fresh : c.initialized ≠ true) (st : Storage)
    (s : Session) :
    c.init st s =
      match initFilters st c.context c.filters s with
      | ((.error e, fs), s') => ((.error e, { c with filters := fs }), s')
      | ((.ok (), fs), s') =>
        ((.ok (), { c with filters := fs, initialized := true }),
          (Session.log (.collectionReady c.identifier fs.length) s').2) := by
  rw [init, if_neg fresh]
  change StateT.bind (initFilters st c.context c.filters) _ s = _
  rw [StateT.bind]
  rcases initFilters st c.context c.filters s with ⟨⟨_ | _, fs⟩, s'⟩ <;> rfl

theorem initFilters_reloaded (st : Storage) (ctx : Context) (fs : List Filter) (s : Session) :
    s.Extends (initFilters st ctx fs s).2 ∧
      List.Forall₂ Reloaded fs (initFilters st ctx fs s).1.2 := by
  induction fs generalizing s with
  | nil => exact ⟨.refl s, .nil⟩
  | cons f rest ih =>
    obtain ⟨grows, reloaded⟩ := initFilter_reloaded st ctx f s
    rw [initFilters_cons]
    rcases outcome : initFilter st ctx f s with ⟨_ | g, s'⟩
    · rw [outcome] at grows
      exact ⟨grows, List.forall₂_same.mpr fun f _ => .same f⟩
    · rw [outcome] at grows reloaded
      obtain ⟨later, others⟩ := ih s'
      exact ⟨grows.trans later, .cons (reloaded g rfl) others⟩

/-- Preparing filters changes options only, also when it fails. -/
theorem init_loadedInto (c : Collection) (st : Storage) (s : Session) :
    s.Extends (c.init st s).2 ∧ c.LoadedInto (c.init st s).1.2 := by
  by_cases initialized : c.initialized = true
  · rw [init, if_pos initialized]
    exact ⟨.refl s, .refl c⟩
  · obtain ⟨grows, reloaded⟩ := initFilters_reloaded st c.context c.filters s
    rw [init_of_fresh initialized]
    rcases outcome : initFilters st c.context c.filters s with ⟨⟨_ | _, fs⟩, s'⟩
    · rw [outcome] at grows reloaded
      exact ⟨grows, rfl, rfl, reloaded⟩
    · rw [outcome] at grows reloaded
      exact ⟨grows.trans (Session.Rule.growing.heard s' _), rfl, rfl, reloaded⟩

end Filter.Collection

end Reports
