import Reports.Proofs.Exchange
import Reports.Proofs.Filter.Loading
import Reports.Proofs.Report.Reading
import Reports.Proofs.Sql.Counting

/-! The statements that load something for a report: the options of its filters and the labels of
its rows. -/
namespace Reports

open Sql (Statement)

/-- Statements asked one after the other, up to the first that fails. -/
inductive Asked : List Statement → List Exchange → Except Error Unit → Prop
  | nil : Asked [] [] (.ok ())
  | failed {x : Statement} {rest : List Statement} {e : Error} :
    Asked (x :: rest) [⟨x, .error e⟩] (.error e)
  | answered {x : Statement} {rest : List Statement} {rows : List Row} {xs : List Exchange}
    {result : Except Error Unit} : Asked rest xs result →
    Asked (x :: rest) (⟨x, .ok rows⟩ :: xs) result

namespace Filter

def optionStatement? (ctx : Context) (f : Filter) : Option Statement :=
  match f.handler with
  | .select s =>
    match s.source with
    | .query q => some { q with sql := Sql.TableRef.expand q.sql ctx.tablePrefix }
    | .fixed _ => none
  | _ => none

namespace Collection

/-- What is asked to prepare the filters: nothing once they are prepared. -/
def optionStatements (c : Collection) : List Statement :=
  if c.initialized then [] else c.filters.filterMap (optionStatement? c.context)

variable {st : Storage} {ctx : Context}

theorem initFilter_of_none {f : Filter} (none : f.optionStatement? ctx = none) :
    initFilter st ctx f = pure f := by
  unfold optionStatement? at none
  unfold initFilter
  cases handler : f.handler with
  | select selection =>
    cases source : selection.source with
    | query q => simp [handler, source] at none
    | fixed options => simp only [source]
  | value => rfl
  | text => rfl
  | date functions => rfl
  | condition condition => rfl

theorem initFilter_of_some {f : Filter} {x : Statement} (some : f.optionStatement? ctx = some x)
    {s s' : Session} {reply : Except Error (List Row)} (fetched : st.fetch x s = (reply, s')) :
    s'.Silent (initFilter st ctx f s).2 ∧
      match reply with
      | .ok _ => ∃ g, (initFilter st ctx f s).1 = .ok g
      | .error e => (initFilter st ctx f s).1 = .error e := by
  unfold optionStatement? at some
  unfold initFilter
  split at some
  · next selection handler =>
    split at some
    · next q source =>
      cases some
      cases reply with
      | error e =>
        simp only [handler, source, Effect.bind_error _ fetched]
        exact ⟨.refl s', trivial⟩
      | ok rows =>
        simp only [handler, source, Effect.bind_ok _ fetched]
        exact ⟨⟨rfl, rfl⟩, _, rfl⟩
    · cases some
  · cases some

theorem asked_initFilters (st : Storage) (ctx : Context) (fs : List Filter) (s : Session) :
    ∃ xs, s.Converses st xs (initFilters st ctx fs s).2 ∧
      Asked (fs.filterMap (optionStatement? ctx)) xs (initFilters st ctx fs s).1.1 := by
  induction fs generalizing s with
  | nil => exact ⟨[], .of_silent (.refl s), .nil⟩
  | cons f rest ih =>
    rw [initFilters_cons]
    cases statement : f.optionStatement? ctx with
    | none =>
      rw [List.filterMap_cons_none statement, initFilter_of_none statement]
      exact ih s
    | some x =>
      rw [List.filterMap_cons_some statement]
      rcases fetched : st.fetch x s with ⟨reply, s₁⟩
      have asked := Action.converses_of_fetch fetched
      obtain ⟨silent, outcome⟩ := initFilter_of_some statement fetched
      rcases loaded : initFilter st ctx f s with ⟨e | g, s₂⟩
      · rw [loaded] at silent outcome
        cases reply with
        | error e' =>
          obtain rfl : e = e' := Except.error.inj outcome
          exact ⟨_, asked.after silent, .failed⟩
        | ok rows =>
          obtain ⟨g, never⟩ := outcome
          cases never
      · rw [loaded] at silent outcome
        cases reply with
        | error e => cases outcome
        | ok rows =>
          obtain ⟨xs, converses, later⟩ := ih s₂
          exact ⟨_, (asked.after silent).trans converses, .answered later⟩

theorem asked_init (c : Collection) (st : Storage) (s : Session) :
    ∃ xs, s.Converses st xs (c.init st s).2 ∧
    Asked c.optionStatements xs (c.init st s).1.1 := by
  by_cases initialized : c.initialized = true
  · rw [init, optionStatements, if_pos initialized, if_pos initialized]
    exact ⟨[], .of_silent (.refl s), .nil⟩
  · obtain ⟨xs, converses, asked⟩ := asked_initFilters st c.context c.filters s
    rw [init_of_fresh initialized, optionStatements, if_neg initialized]
    rcases outcome : initFilters st c.context c.filters s with ⟨⟨e | _, fs⟩, s'⟩
    · rw [outcome] at converses asked
      exact ⟨xs, converses, asked⟩
    · rw [outcome] at converses asked
      exact ⟨xs, converses.after ⟨rfl, rfl⟩, asked⟩

end Collection

end Filter

namespace Field

def Lookup.Wants (l : Lookup) (d : Sql.Dialect) (ls : Labels) (ids : List String) (x : Statement) :
    Prop :=
  ∃ missing n m, (∀ id, id ∈ missing → id ∈ ids ∧ ls.contains l id = false) ∧
    missing ≠ [] ∧ (l.query d missing).render d n = (.ok x, m)

/-- The labels for cells of a page, lookup by lookup. Nothing is asked when all ids have labels, and
nothing more after a failure. -/
inductive Labelling (d : Sql.Dialect) (rows : List Row) :
    Labels → List (String × Lookup) → List Exchange → Except Error Labels → Prop
  | nil {ls : Labels} : Labelling d rows ls [] [] (.ok ls)
  | known {ls : Labels} {name : String} {l : Lookup} {rest : List (String × Lookup)}
    {xs : List Exchange} {result : Except Error Labels} :
    (∀ id ∈ Request.idsOfRows name rows, ls.contains l id = true) →
      Labelling d rows ls rest xs result → Labelling d rows ls ((name, l) :: rest) xs result
  | refused {ls : Labels} {name : String} {l : Lookup}
    {rest : List (String × Lookup)} {e : Error} :
    l.check = .error e ∨ (∃ missing n m, (l.query d missing).render d n = (.error e, m)) →
      Labelling d rows ls ((name, l) :: rest) [] (.error e)
  | failed {ls : Labels} {name : String} {l : Lookup} {rest : List (String × Lookup)}
    {x : Statement}
    {e : Error} : l.Wants d ls (Request.idsOfRows name rows) x →
      Labelling d rows ls ((name, l) :: rest) [⟨x, .error e⟩] (.error e)
  | answered {ls : Labels} {name : String} {l : Lookup} {rest : List (String × Lookup)}
    {x : Statement} {found : List Row} {xs : List Exchange} {result : Except Error Labels} :
    l.Wants d ls (Request.idsOfRows name rows) x →
      Labelling d rows (ls.insertMany l (found.filterMap Lookup.entryOfRow)) rest xs result →
        Labelling d rows ls ((name, l) :: rest) (⟨x, .ok found⟩ :: xs) result

namespace Labelling

variable {d : Sql.Dialect} {rows : List Row} {ls ls' : Labels} {ps qs : List (String × Lookup)}
  {xs ys : List Exchange}

theorem append {result : Except Error Labels} (first : Labelling d rows ls ps xs (.ok ls'))
    (second : Labelling d rows ls' qs ys result) :
    Labelling d rows ls (ps ++ qs) (xs ++ ys) result := by
  generalize same : Except.ok ls' = done at first
  induction first with
  | nil =>
    cases same
    exact second
  | known all _ ih => exact .known all (ih same)
  | refused => cases same
  | failed => cases same
  | answered wants _ ih => exact .answered wants (ih same)

theorem stopped {e : Error} (first : Labelling d rows ls ps xs (.error e))
    (qs : List (String × Lookup)) : Labelling d rows ls (ps ++ qs) xs (.error e) := by
  generalize same : Except.error e = done at first
  induction first with
  | nil => cases same
  | known all _ ih => exact .known all (ih same)
  | refused why =>
    cases same
    exact .refused why
  | failed wants =>
    cases same
    exact .failed wants
  | answered wants _ ih => exact .answered wants (ih same)

end Labelling

theorem labelling_prefetch (ls : Labels) (st : Storage) (l : Lookup) (name : String)
    (rows : List Row) (s : Session) :
    ∃ xs, s.Converses st xs (ls.prefetch st l (Request.idsOfRows name rows) s).2 ∧
      Labelling st.dialect rows ls [(name, l)] xs
        (ls.prefetch st l (Request.idsOfRows name rows) s).1 := by
  let ids := Request.idsOfRows name rows
  let missing := (Ascending.texts ids).filter fun id => !ls.contains l id
  have lacking : ∀ id, id ∈ missing → id ∈ ids ∧ ls.contains l id = false := by
    intro id mem
    obtain ⟨mem, lacks⟩ := List.mem_filter.mp mem
    exact ⟨Ascending.mem_texts.mp mem, by simpa using lacks⟩
  change ∃ xs, s.Converses st xs (ls.prefetch st l ids s).2 ∧
    Labelling st.dialect rows ls [(name, l)] xs (ls.prefetch st l ids s).1
  by_cases none : missing.isEmpty = true
  · rw [Labels.prefetch, if_pos none]
    refine ⟨[], .of_silent (.refl s), .known ?_ .nil⟩
    intro id mem
    by_contra lacks
    have there : id ∈ missing :=
      List.mem_filter.mpr ⟨Ascending.mem_texts.mpr mem, by simpa using lacks⟩
    rw [List.isEmpty_iff.mp none] at there
    cases there
  · rw [Labels.prefetch, if_neg none]
    cases checked : l.check with
    | error e => exact ⟨[], .of_silent (.refl s), .refused (Or.inl checked)⟩
    | ok _ =>
      dsimp only
      rcases rendered : (l.query st.dialect missing).render st.dialect s.drawn with ⟨e | x, m⟩
      · rw [Effect.bind_error _ (Sql.draw_eq rendered)]
        exact ⟨[], .of_silent ⟨rfl, rfl⟩,
          .refused (Or.inr ⟨missing, s.drawn, m, rendered⟩)⟩
      · have wants : l.Wants st.dialect ls ids x :=
          ⟨missing, s.drawn, m, lacking, by simpa using none, rendered⟩
        rw [Effect.bind_ok _ (Sql.draw_eq rendered)]
        rcases fetched : st.fetch x { s with drawn := m } with ⟨e | found, s'⟩
        · rw [Effect.bind_error _ fetched]
          exact ⟨_, (Action.converses_of_fetch fetched).before ⟨rfl, rfl⟩, .failed wants⟩
        · rw [Effect.bind_ok _ fetched]
          have asked := (Action.converses_of_fetch fetched).before (s := s) ⟨rfl, rfl⟩
          exact ⟨_, asked.after ⟨rfl, rfl⟩, .answered wants .nil⟩

end Field

namespace Request

open Reports.Field (Lookup Labels Labelling)

/-- The lookups that an attribute of a field reads, with the column that holds the ids. -/
def linked (name : String) (as : List Field.Attribute) : List (String × Lookup) :=
  as.filterMap fun a => a.lookup?.map fun l => (name, l)

/-- The lookups of the fields that are shown, in the order in which they are shown. -/
def lookups (r : Request) : List (String × Lookup) :=
  r.displayFields.flatMap fun f => linked f.name f.attributes

def Loads (rows : List Row) (ps : List (String × Lookup)) (x : RequestAction Unit) : Prop :=
  ∀ r s, ∃ xs result, s.Converses r.storage xs (x r s).2 ∧
    Labelling r.dialect rows r.labels ps xs result ∧
      match result with
      | .error e => (x r s).1.1 = .error e
      | .ok labels => (x r s).1 = (.ok (), { r with labels })

theorem Loads.bind {rows : List Row} {ps qs : List (String × Lookup)} {x y : RequestAction Unit}
    (hx : Loads rows ps x) (hy : Loads rows qs y) : Loads rows (ps ++ qs) (x >>= fun _ => y) := by
  intro r s
  obtain ⟨xs, result, converses, labelling, outcome⟩ := hx r s
  rcases done : x r s with ⟨⟨e | _, r₁⟩, s₁⟩
  · rw [done] at converses outcome
    rw [bind_error _ done]
    cases result with
    | error e' =>
      obtain rfl : e = e' := Except.error.inj outcome
      exact ⟨xs, .error e, converses, labelling.stopped qs, rfl⟩
    | ok labels => cases outcome
  · rw [done] at converses outcome
    rw [bind_ok _ done]
    cases result with
    | error e => cases outcome
    | ok labels =>
      obtain rfl : r₁ = { r with labels } := congrArg Prod.snd outcome
      obtain ⟨ys, result, converses', labelling', outcome'⟩ := hy { r with labels } s₁
      refine ⟨xs ++ ys, result, converses.trans converses', labelling.append labelling', ?_⟩
      cases result with
      | error e => exact outcome'
      | ok labels' => exact outcome'

theorem loads_nothing (rows : List Row) : Loads rows [] (pure ()) :=
  fun r s => ⟨[], .ok r.labels, .of_silent (.refl s), .nil, rfl⟩

theorem loads_attribute (name : String) (rows : List Row) (a : Field.Attribute) :
    Loads rows (linked name [a]) (prefetchAttribute name rows a) := by
  unfold linked prefetchAttribute
  cases lookup : a.lookup? with
  | none =>
    rw [List.filterMap_cons_none (by rw [lookup]; rfl)]
    exact loads_nothing rows
  | some l =>
    rw [List.filterMap_cons_some (by rw [lookup]; rfl), List.filterMap_nil]
    dsimp only
    intro r s
    by_cases none : (idsOfRows name rows).isEmpty = true
    · rw [if_pos none]
      refine ⟨[], .ok r.labels, .of_silent (.refl s), .known ?_ .nil, rfl⟩
      intro id mem
      rw [List.isEmpty_iff.mp none] at mem
      cases mem
    · rw [if_neg none, bind_ok _ (rfl : current r s = _)]
      obtain ⟨xs, converses, labelling⟩ :=
        Field.labelling_prefetch r.labels r.storage l name rows s
      rcases fetched : r.labels.prefetch r.storage l (idsOfRows name rows) s
        with ⟨e | labels, s'⟩
      · rw [fetched] at converses labelling
        rw [bind_error _ (act_eq fetched r)]
        exact ⟨xs, .error e, converses, labelling, rfl⟩
      · rw [fetched] at converses labelling
        rw [bind_ok _ (act_eq fetched r)]
        exact ⟨xs, .ok labels, converses, labelling, rfl⟩

theorem loads_attributes (name : String) (rows : List Row) (as : List Field.Attribute) :
    Loads rows (linked name as) (prefetchAttributes name rows as) := by
  induction as with
  | nil => exact loads_nothing rows
  | cons a rest ih =>
    have split : linked name (a :: rest) = linked name [a] ++ linked name rest :=
      List.filterMap_append (l := [a])
    rw [split]
    exact (loads_attribute name rows a).bind ih

theorem loads_labels (rows : List Row) (fs : List Field) :
    Loads rows (fs.flatMap fun f => linked f.name f.attributes) (prefetchLabels rows fs) := by
  induction fs with
  | nil => exact loads_nothing rows
  | cons f rest ih => exact (loads_attributes f.name rows f.attributes).bind ih

end Request

end Reports
