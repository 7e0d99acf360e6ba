import Reports.Proofs.Filter.Choices
import Reports.Proofs.Filter.Loading
import Reports.Proofs.Filter.Restriction
import Reports.Proofs.Filter.Unset

/-! What users choose does not break a report: filters render whatever values they have taken,
except for a list of empty lists taken by a choice without options. -/
namespace Reports

open Sql (Dialect Operator Predicate Template)
open Sql.Predicate (flatten)

def Sql.Operator.takesValues : Operator → Bool
  | .inQuery | .notInQuery | .custom | .unsupported _ => false
  | _ => true

/-- A list of empty lists: not empty, but without values. -/
def Json.Hollow : Json → Prop
  | .array items => items ≠ [] ∧ ∀ item ∈ items, item = .array []
  | _ => False

namespace Filter

/-- Dates have functions that are known, and choices have options that are scalar. -/
def Handler.WellFormed : Handler → Prop
  | .date functions => ∀ name ∈ functions, (DateRange.ofName? name).isSome = true
  | .select s => ∀ o ∈ s.options, o.value.isScalar = true
  | _ => True

theorem wellFormed_everyDate : Handler.everyDate.WellFormed := by
  intro name mem
  obtain ⟨range, -, rfl⟩ := List.mem_map.mp mem
  cases range <;> decide

/-- What a handler can have stored, perhaps when it had other options. -/
def Handler.Stores : Handler → Json → Prop
  | .value, v | .select _, v => v ≠ .array []
  | .date functions, v => ∃ name ∈ functions, v = .string name
  | _, _ => True

/-- The filter compares with values, and holds one that its handler can have stored. -/
structure Sound (f : Filter) : Prop where
  operator : f.operator.takesValues = true
  handler : f.handler.WellFormed
  raw : ∀ v, f.raw = some v → f.handler.Stores v

/-- A choice has taken a list of empty lists. -/
def Hollow (f : Filter) : Prop := ∃ s v, f.handler = .select s ∧ f.raw = some v ∧ v.Hollow

def Untimely (f : Filter) (ctx : Context) : Prop :=
  ∃ functions name range, f.handler = .date functions ∧ f.raw = some (.string name) ∧
    DateRange.ofName? name = some range ∧ range.bound? ctx.now = none

theorem not_untimely_of_late {f : Filter} {ctx : Context}
    (late : Calendar.firstMoment + DateRange.secondsOf 30 ≤ ctx.now.second) :
    ¬ f.Untimely ctx := by
  have given {days : Int} (most : days ≤ 30) : ctx.now.daysAgo? days ≠ none := by
    have inside : Calendar.firstMoment ≤ ctx.now.second - days * Calendar.secondsPerDay := by
      unfold DateRange.secondsOf at late
      unfold Calendar.secondsPerDay at late ⊢
      omega
    obtain ⟨before, ago, -⟩ := Calendar.Moment.daysAgo?_eq_some inside
    simp [ago]
  rintro ⟨functions, name, range, -, -, -, early⟩
  cases range with
  | last7Days => exact given (by decide) (Option.map_eq_none_iff.mp early)
  | last30Days => exact given (by decide) (Option.map_eq_none_iff.mp early)
  | _ => cases early

/-- The filter contributes nothing, or a predicate that renders. -/
def Renders (d : Dialect) (ctx : Context) (f : Filter) : Prop :=
  match f.predicate? ctx with
  | .error _ => False
  | .ok none => True
  | .ok (some p) => ∃ t, p.template d = .ok t

theorem exists_template_new {op : Operator} (takes : op.takesValues = true) (selector : String)
    (vs : List Json) (d : Dialect) :
    (∃ t, (Predicate.new selector vs op).template d = .ok t) ↔ flatten vs ≠ [] := by
  cases values : flatten vs with
  | nil =>
    constructor
    · rintro ⟨t, template⟩
      cases op <;>
        simp [Predicate.template, Predicate.base, Predicate.new, Predicate.firstValue, values,
          bind, Except.bind, Operator.takesValues] at template takes
    · exact fun never => absurd rfl never
  | cons v rest =>
    refine ⟨fun _ => List.cons_ne_nil v rest, fun _ => ?_⟩
    cases op <;> simp [Operator.takesValues] at takes <;>
      exact ⟨_, by
        simp [Predicate.template, Predicate.base, Predicate.new, Predicate.firstValue, values,
          bind, Except.bind]
        rfl⟩

theorem flatten_eq_nil_iff {vs : List Json} : flatten vs = [] ↔ ∀ v ∈ vs, v = .array [] := by
  unfold flatten
  rw [List.flatMap_eq_nil_iff]
  refine forall_congr' fun v => imp_congr_right fun _ => ?_
  cases v <;> simp

theorem flatten_singleton_ne_nil {v : Json} (some : v ≠ .array []) : flatten [v] ≠ [] := by
  rw [Ne, flatten_eq_nil_iff, List.forall_mem_singleton]
  exact some

theorem not_hollow_of_scalar {v : Json} (scalar : v.isScalar = true) :
    ¬ v.Hollow ∧ v ≠ .array [] := by
  cases v <;> simp_all [Json.isScalar, Json.Hollow]

section Select

variable {s : Selection} (scalar : ∀ o ∈ s.options, o.value.isScalar = true)

include scalar

theorem scalar_of_default {v : Json} (preset : s.defaultValue? = some v) : v.isScalar = true := by
  unfold Selection.defaultValue? at preset
  split at preset
  · cases preset
  · next only options =>
    cases preset
    exact scalar only (by rw [options]; exact List.mem_cons_self)
  · cases preset
    rfl

theorem Selection.renders_iff {op : Operator} (takes : op.takesValues = true) (selector : String)
    {v : Json} (some : v ≠ .array []) (d : Dialect) :
    (∀ p, s.predicate? selector op v = .some p → ∃ t, p.template d = .ok t) ↔
    ¬ v.Hollow := by
  unfold Selection.predicate?
  by_cases all : isAll v = true
  · have text : ¬ v.Hollow := by
      cases v <;> simp [isAll, Json.Hollow] at all ⊢
    rw [if_pos all]
    refine iff_of_true ?_ text
    split
    · rintro p ⟨⟩
    · split
      · rintro p ⟨⟩
        exact ⟨_, rfl⟩
      · next known =>
        rintro p ⟨⟩
        refine (exists_template_new rfl selector _ d).mpr fun none => ?_
        obtain ⟨o, rest, options⟩ := List.exists_cons_of_ne_nil (by simpa using known)
        have mem : o ∈ s.options := by
          rw [options]
          exact List.mem_cons_self
        have empty := flatten_eq_nil_iff.mp none o.value (List.mem_map_of_mem mem)
        exact (not_hollow_of_scalar (scalar o mem)).2 empty
  · rw [if_neg all]
    split
    · next items =>
      have listed : items ≠ [] := by simpa using some
      have takesList : Operator.inList.takesValues = true := rfl
      have exact_template := exists_template_new takesList selector items d
      rw [Ne, flatten_eq_nil_iff] at exact_template
      simp only [Option.some.injEq, forall_eq', exact_template, Json.Hollow, listed, ne_eq,
        not_false_eq_true, true_and]
    · next single =>
      have flat : ¬ v.Hollow := by
        cases v <;> simp_all [Json.Hollow]
      refine iff_of_true ?_ flat
      rintro p ⟨⟩
      exact (exists_template_new takes selector [v] d).mpr (flatten_singleton_ne_nil some)

end Select

theorem renders_of_predicate? {f : Filter} {ctx : Context} {p : Option Predicate}
    (given : f.predicate? ctx = .ok p) (d : Dialect) :
    f.Renders d ctx ↔ ∀ q, p = some q → ∃ t, q.template d = .ok t := by
  rw [Renders, given]
  cases p <;> simp

theorem predicate?_unlisted {f : Filter} (unlisted : f.handler.defaultValue? = none)
    (ctx : Context) :
    f.predicate? ctx = f.handler.predicate? f.selector f.operator f.raw ctx := by
  unfold predicate?
  split
  · next condition =>
    unfold isCondition at condition
    cases handler : f.handler <;> rw [handler] at condition <;> first | rfl | cases condition
  · rw [effectiveValue?, defaultValue?, unlisted, Option.or_none]

theorem predicate?_text (selector : String) (op : Operator) (value : Option Json) (ctx : Context) :
    Handler.text.predicate? selector op value ctx = .ok (value.bind fun
      | .string s => if s.isEmpty then none else some (.new selector [.string s] op)
      | _ => none) := by
  cases value with
  | none => rfl
  | some v => cases v <;> rfl

theorem takesValues_of_bound {now : Calendar.Moment} {range : DateRange} {b : Operator × Int}
    (bound : range.bound? now = some b) : b.1.takesValues = true := by
  have days {x : Option Calendar.Moment}
      (h : x.map (fun m => (Operator.greaterOrEqual, m.second)) = some b) :
      b.1.takesValues = true := by
    obtain ⟨m, -, rfl⟩ := Option.map_eq_some_iff.mp h
    rfl
  cases range with
  | last7Days => exact days bound
  | last30Days => exact days bound
  | _ =>
    cases bound
    rfl

theorem Sound.renders_date {f : Filter} (sound : f.Sound) {functions : List String}
    (handler : f.handler = .date functions) (d : Dialect) (ctx : Context) :
    f.Renders d ctx ↔ ¬ f.Untimely ctx := by
  have known := sound.handler
  have stores := sound.raw
  rw [handler] at known stores
  have given := predicate?_unlisted (f := f) (by rw [handler]; rfl) ctx
  rw [handler] at given
  cases chosen : f.raw with
  | none =>
    rw [chosen] at given
    refine iff_of_true (by rw [Renders, given]; trivial) ?_
    rintro ⟨_, name, range, -, other, -⟩
    cases chosen.symm.trans other
  | some v =>
    obtain ⟨name, mem, rfl⟩ := stores v chosen
    obtain ⟨range, named⟩ := Option.isSome_iff_exists.mp (known name mem)
    rw [chosen] at given
    simp only [Handler.predicate?, named] at given
    have untimely : f.Untimely ctx ↔ range.bound? ctx.now = none := by
      constructor
      · rintro ⟨_, name', range', -, same, named', early⟩
        cases chosen.symm.trans same
        cases named.symm.trans named'
        exact early
      · exact fun early => ⟨functions, name, range, handler, chosen, named, early⟩
    rw [untimely]
    cases bound : range.bound? ctx.now with
    | none =>
      rw [bound] at given
      exact iff_of_false (by rw [Renders, given]; exact id) (fun some => some rfl)
    | some b =>
      rw [bound] at given
      refine iff_of_true ?_ (fun none => Option.some_ne_none b none)
      rw [Renders, given]
      exact (exists_template_new (takesValues_of_bound bound) f.selector _ d).mpr
        (flatten_singleton_ne_nil (by simp [Json.ofInt]))

theorem Sound.renders_select {f : Filter} (sound : f.Sound) {s : Selection}
    (handler : f.handler = .select s) (d : Dialect) (ctx : Context) : f.Renders d ctx ↔
    ¬ f.Hollow := by
  have scalar := sound.handler
  have stores := sound.raw
  rw [handler] at scalar stores
  have hollow : f.Hollow ↔ ∃ v, f.raw = some v ∧ v.Hollow := by
    simp only [Hollow, handler, Handler.select.injEq, exists_and_left, exists_eq_left']
  rw [renders_of_predicate? (predicate?_select handler ctx), hollow]
  cases chosen : f.raw with
  | some v =>
    have renders := Selection.renders_iff scalar sound.operator f.selector (stores v chosen) d
    simpa using renders
  | none =>
    refine iff_of_true (fun p given => ?_) (by simp)
    rw [Option.none_or, Option.bind_eq_some_iff] at given
    obtain ⟨v, preset, given⟩ := given
    obtain ⟨flat, some⟩ := not_hollow_of_scalar (scalar_of_default scalar preset)
    exact (Selection.renders_iff scalar sound.operator f.selector some d).mpr flat p given

/-- A filter with a value that it can have stored renders, unless that is hollow or out of time. -/
theorem Sound.renders_iff {f : Filter} (sound : f.Sound) (d : Dialect) (ctx : Context) :
    f.Renders d ctx ↔ ¬ f.Hollow ∧ ¬ f.Untimely ctx := by
  have flat (unlisted : ∀ s, f.handler ≠ .select s) : ¬ f.Hollow := by
    rintro ⟨s, v, handler, -⟩
    exact unlisted s handler
  have timely (undated : ∀ functions, f.handler ≠ .date functions) : ¬ f.Untimely ctx := by
    rintro ⟨functions, name, range, handler, -⟩
    exact undated functions handler
  have given (unlisted : f.handler.defaultValue? = none) := predicate?_unlisted unlisted ctx
  have stores := sound.raw
  cases handler : f.handler with
  | date functions =>
    rw [sound.renders_date handler, and_iff_right (flat (by simp [handler]))]
  | select s =>
    rw [sound.renders_select handler, and_iff_left (timely (by simp [handler]))]
  | condition k =>
    obtain ⟨p, t, contributed, template⟩ :=
      exists_predicate (f := f) (by rw [isCondition, handler]; rfl) ctx d
    refine iff_of_true ?_ ⟨flat (by simp [handler]), timely (by simp [handler])⟩
    rw [Renders, contributed]
    exact ⟨t, template⟩
  | value =>
    refine iff_of_true ?_ ⟨flat (by simp [handler]), timely (by simp [handler])⟩
    rw [handler] at given stores
    rw [renders_of_predicate? (given rfl)]
    intro p contributed
    obtain ⟨v, chosen, rfl⟩ := Option.map_eq_some_iff.mp contributed
    exact (exists_template_new sound.operator _ _ d).mpr
      (flatten_singleton_ne_nil (stores v chosen))
  | text =>
    refine iff_of_true ?_ ⟨flat (by simp [handler]), timely (by simp [handler])⟩
    rw [handler, predicate?_text] at given
    rw [renders_of_predicate? (given rfl)]
    intro p contributed
    obtain ⟨v, -, compared⟩ := Option.bind_eq_some_iff.mp contributed
    obtain ⟨s, rfl⟩ : ∃ s, p = .new f.selector [.string s] f.operator := by
      cases v <;> simp only [reduceCtorEq] at compared
      split at compared <;> cases compared
      exact ⟨_, rfl⟩
    exact (exists_template_new sound.operator _ _ d).mpr (flatten_singleton_ne_nil (by simp))

theorem Selection.Takes.kept {s : Selection} (scalar : ∀ o ∈ s.options, o.value.isScalar = true)
    {value v : Json} (takes : s.Takes value v) (some : Collection.isEmptyInput value = false) :
    v ≠ .array [] ∧ (v.Hollow → value.Hollow) := by
  have found {item o : Json} (h : s.findOption? item = .some o) : o.isScalar = true := by
    obtain ⟨c, mem, rfl, -⟩ := findOption?_eq_some h
    exact scalar c mem
  cases takes with
  | all => exact ⟨by simp [allValue], fun hollow => hollow.elim⟩
  | unknown _ _ =>
    refine ⟨?_, id⟩
    rintro rfl
    cases some
  | @several items options list _ _ each =>
    subst list
    cases each with
    | nil => cases some
    | cons here _ =>
      refine ⟨by simp, fun hollow => ?_⟩
      have empty := hollow.2 _ List.mem_cons_self
      exact absurd empty (not_hollow_of_scalar (found here)).2
  | single _ _ _ h =>
    obtain ⟨flat, listed⟩ := not_hollow_of_scalar (found h)
    exact ⟨listed, fun hollow => absurd hollow flat⟩

theorem Handler.stores_of_validate {h : Handler} (wellFormed : h.WellFormed) {name : String}
    {value v : Json} (some : Collection.isEmptyInput value = false)
    (checked : h.validate name value = .ok v) :
    h.Stores v ∧ ∀ s, h = .select s → v.Hollow → value.Hollow := by
  cases h with
  | value =>
    cases checked
    refine ⟨?_, fun s never => nomatch never⟩
    rintro rfl
    cases some
  | text => exact ⟨trivial, fun s never => nomatch never⟩
  | date functions =>
    refine ⟨?_, fun s never => nomatch never⟩
    cases value with
    | string name =>
      rw [Handler.validate] at checked
      split at checked
      · next offered =>
        cases checked
        exact ⟨name, by simpa using offered, rfl⟩
      · cases checked
    | _ => cases checked
  | select s =>
    obtain ⟨listed, flat⟩ := (Selection.validate_eq_ok.mp checked).kept wellFormed some
    exact ⟨listed, fun _ _ => flat⟩
  | condition k => exact ⟨trivial, fun s never => nomatch never⟩

theorem Sound.setRaw {f g : Filter} {value : Json} (sound : f.Sound)
    (some : Collection.isEmptyInput value = false) (stored : f.setRaw value = .ok g) :
    g.Sound ∧ (g.Hollow → value.Hollow) := by
  obtain ⟨v, checked, rfl⟩ := Collection.setRaw_ok stored
  obtain ⟨stores, flat⟩ := Handler.stores_of_validate sound.handler some checked
  refine ⟨⟨sound.operator, sound.handler, fun w same => Option.some.inj same ▸ stores⟩,
    ?_⟩
  rintro ⟨s, w, handler, same, hollow⟩
  cases same
  exact flat s handler hollow

end Filter

def Storage.ListsScalars (st : Storage) : Prop :=
  ∀ n bound rows, st.answer n bound = .ok rows → ∀ row ∈ rows, ∀ o,
    Filter.Selection.optionOfRow row = some o → o.value.isScalar = true

theorem Storage.answer_of_fetch {st : Storage} {x : Sql.Statement} {s s' : Session}
    {rows : List Row} (fetched : st.fetch x s = (.ok rows, s')) :
    ∃ bound, st.answer s.served bound = .ok rows := by
  rw [Storage.fetch] at fetched
  split at fetched
  · cases fetched
  · next bound _ =>
    dsimp only at fetched
    split at fetched
    · next rows' answered =>
      cases fetched
      exact ⟨bound, answered⟩
    · cases fetched

namespace Filter

theorem Reloaded.hollow {f g : Filter} (reloaded : f.Reloaded g) (hollow : g.Hollow) :
    f.Hollow := by
  cases reloaded with
  | same => exact hollow
  | options options handler source =>
    obtain ⟨_, v, -, chosen, empty⟩ := hollow
    exact ⟨_, v, handler, chosen, empty⟩

namespace Collection

theorem sound_initFilter {st : Storage} (lists : st.ListsScalars) {ctx : Context} {f g : Filter}
    {s s' : Session} (sound : f.Sound) (loaded : initFilter st ctx f s = (.ok g, s')) :
    g.Sound := by
  have same (h : (pure f : Action Filter) s = (.ok g, s')) : g.Sound := by
    cases h
    exact sound
  unfold initFilter at loaded
  cases handler : f.handler with
  | select selection =>
    cases source : selection.source with
    | fixed options =>
      simp only [handler, source] at loaded
      exact same loaded
    | query q =>
      simp only [handler, source] at loaded
      obtain ⟨rows, s₁, fetched, loaded⟩ := Effect.of_bind_ok loaded
      cases loaded
      obtain ⟨bound, answered⟩ := Storage.answer_of_fetch fetched
      have stores := sound.raw
      rw [handler] at stores
      refine ⟨sound.operator, fun o mem => ?_, stores⟩
      obtain ⟨row, there, read⟩ := List.mem_filterMap.mp mem
      exact lists _ bound rows answered row there o read
  | _ =>
    rw [handler] at loaded
    exact same loaded

theorem forall_init {P : Filter → Prop} {c : Collection} {st : Storage}
    (step : ∀ f g s s', P f → initFilter st c.context f s = (.ok g, s') → P g)
    (all : ∀ f ∈ c.filters, P f) (s : Session) : ∀ f ∈ (c.init st s).1.2.filters, P f := by
  have each (fs : List Filter) (s : Session) (all : ∀ f ∈ fs, P f) :
      ∀ f ∈ (initFilters st c.context fs s).1.2, P f := by
    induction fs generalizing s with
    | nil => exact fun f mem => nomatch mem
    | cons f rest ih =>
      have later (s' : Session) := ih s' fun f mem => all f (List.mem_cons_of_mem _ mem)
      rw [initFilters_cons]
      rcases loaded : initFilter st c.context f s with ⟨e | g, s'⟩
      · exact all
      · exact List.forall_mem_cons.mpr
          ⟨step f g s s' (all f List.mem_cons_self) loaded, later s'⟩
  by_cases initialized : c.initialized = true
  · rw [init, if_pos initialized]
    exact all
  · have kept := each c.filters s all
    rw [init_of_fresh initialized]
    rcases outcome : initFilters st c.context c.filters s with ⟨⟨e | _, fs⟩, s'⟩
    · rw [outcome] at kept
      exact kept
    · rw [outcome] at kept
      exact kept

theorem exists_templates {d : Dialect} {ctx : Context} {fs : List Filter} :
    (∃ ts, templates d ctx fs = .ok ts) ↔ ∀ f ∈ fs, f.Renders d ctx := by
  induction fs with
  | nil => exact iff_of_true ⟨[], rfl⟩ fun f mem => nomatch mem
  | cons f rest ih =>
    rw [List.forall_mem_cons, ← ih, Renders, templates]
    cases f.predicate? ctx with
    | error e => simp
    | ok p =>
      cases p with
      | none => simp
      | some p =>
        cases template : p.template d with
        | error e => simp [template]
        | ok t => cases templates d ctx rest <;> simp [template]

theorem exists_render {c : Collection} {d : Dialect} (n : Nat) :
    (∃ x m, c.render d n = (.ok x, m)) ↔ ∀ f ∈ c.filters, f.Renders d c.context := by
  rw [← exists_templates]
  have outcome := render_outcome d c n
  split at outcome
  · next ts found =>
    obtain ⟨x, rendered⟩ := outcome
    exact iff_of_true ⟨x, _, rendered⟩ ⟨ts, found⟩
  · next e found =>
    obtain ⟨m, failed, -⟩ := outcome
    rw [failed, found]
    refine iff_of_false ?_ (by simp)
    rintro ⟨x, m', never⟩
    cases never

inductive Turn
  | user (a : UserAction)
  | init (storage : Storage) (session : Session)

def Turn.Offers (v : Json) : Turn → Prop
  | user a => a.Offers v
  | init _ _ => False

def turn (c : Collection) : Turn → Collection
  | .user a => c.perform a
  | .init storage session => (c.init storage session).1.2

def play (c : Collection) (ts : List Turn) : Collection := ts.foldl turn c

/-- What values from a user keep and loading keeps, all turns keep. -/
theorem forall_play {V : Json → Prop} {P : Filter → Prop} (lasting : Lasting V P)
    {c : Collection} {ts : List Turn}
    (loads : ∀ st s, .init st s ∈ ts → ∀ ctx f g s s', P f →
      initFilter st ctx f s = (.ok g, s') → P g)
    (offered : ∀ t ∈ ts, ∀ v, t.Offers v → V v) (all : ∀ f ∈ c.filters, P f) :
    ∀ f ∈ (c.play ts).filters, P f := by
  induction ts generalizing c with
  | nil => exact all
  | cons t rest ih =>
    have later {c : Collection} :=
      ih (c := c) (fun st s mem => loads st s (List.mem_cons_of_mem _ mem))
      fun t mem => offered t (List.mem_cons_of_mem _ mem)
    cases t with
    | user a => exact later (forall_perform lasting a all (offered _ List.mem_cons_self))
    | init st s => exact later (forall_init (loads st s List.mem_cons_self _) all s)

theorem context_play (c : Collection) (ts : List Turn) : (c.play ts).context = c.context := by
  induction ts generalizing c with
  | nil => rfl
  | cons t rest ih =>
    refine (ih _).trans ?_
    cases t with
    | user a => exact (c.perform_chosen a).context
    | init st s => exact (c.init_loadedInto st s).2.context

/-- Whatever users choose, accepted or not, and whenever options are loaded, the filters render in
both dialects: except that a choice may have taken a list of empty lists, and that the calendar
begins too late for a range of dates. -/
theorem accepted_renders {c : Collection} (sound : ∀ f ∈ c.filters, f.Sound) (ts : List Turn)
    (lists : ∀ st s, .init st s ∈ ts → st.ListsScalars) (d : Dialect) (n : Nat) :
    let c' := c.play ts
    ((∃ x m, c'.render d n = (.ok x, m)) ↔
      ∀ f ∈ c'.filters, ¬ f.Hollow ∧ ¬ f.Untimely c.context) ∧
    ((∀ f ∈ c.filters, ¬ f.Hollow) → (∀ t ∈ ts, ∀ v, t.Offers v → ¬ v.Hollow) →
      ∀ f ∈ c'.filters, ¬ f.Hollow) := by
  intro c'
  have later : ∀ f ∈ c'.filters, f.Sound := by
    refine forall_play (V := fun _ => True) ?_ ?_ (fun _ _ _ _ => trivial) sound
    · exact fun f g value sound _ some _ stored => (sound.setRaw some stored).1
    · exact fun st s mem ctx f g s s' sound loaded =>
        sound_initFilter (lists st _ mem) sound loaded
  constructor
  · rw [exists_render]
    refine forall₂_congr fun f mem => ?_
    rw [(later f mem).renders_iff, context_play]
  · intro start flat
    have both : ∀ f ∈ c'.filters, f.Sound ∧ ¬ f.Hollow := by
      refine forall_play (V := fun v => ¬ v.Hollow) ?_ ?_ flat fun f mem =>
        ⟨sound f mem, start f mem⟩
      · rintro f g value ⟨sound, -⟩ flat some - stored
        obtain ⟨sound', hollow⟩ := sound.setRaw some stored
        exact ⟨sound', mt hollow flat⟩
      · rintro st s mem ctx f g s s' ⟨sound, flat⟩ loaded
        refine ⟨sound_initFilter (lists st _ mem) sound loaded, mt ?_ flat⟩
        exact ((initFilter_reloaded st ctx f s).2 g (by rw [loaded])).hollow
    exact fun f mem => (both f mem).2

def ownCoursesBy : Collection :=
  { identifier := "courses", context := { userId := 7, now := 1700000000 }
    filters := [(Filter.new "category" "c.category").withHandler
        (.select (.new (.query ⟨"SELECT cc.id FROM \x7bcourse_categories\x7d cc", ∅⟩)
          .expandOptions)),
      (Filter.new "name" "c.fullname").withHandler .text,
      (Filter.new "start" "c.startdate").withHandler .everyDate,
      (Filter.new "enrolled" "c.id").withHandler (.condition .enrolledCourses)] }

def twoCategories : Storage where
  dialect := .sqlite
  answer := fun _ _ => .ok [.ofList [("id", .ofInt 3)], .ofList [("id", .ofInt 4)]]

def manyTurns : List Turn :=
  [.user (.apply "category" (.array [.ofInt 9])), .init twoCategories {},
    .user
      (.applyAll [("name", .string " law "), ("start", .string "last_7_days"),
        ("owner", .ofInt 1)]),
    .user (.restore ⟨[("category", .array [.ofInt 3]), ("start", .string "never")]⟩)]

theorem accepted_renders_manyTurns :
    (∀ f ∈ ownCoursesBy.filters, f.Sound ∧ ¬ f.Hollow) ∧
      (∀ t ∈ manyTurns, ∀ v, t.Offers v → ¬ v.Hollow) ∧
      ((ownCoursesBy.play manyTurns).applied.map (·.name) =
        ["category", "name", "start", "enrolled"]) ∧
      ∃ x m, (ownCoursesBy.play manyTurns).render .postgres 0 = (.ok x, m) := by
  have fresh {f : Filter} (operator : f.operator.takesValues = true)
    (handler : f.handler.WellFormed)
      (unchosen : f.raw = none) : f.Sound ∧ ¬ f.Hollow := by
    refine ⟨⟨operator, handler, fun v chosen => by simp [unchosen] at chosen⟩, ?_⟩
    rintro ⟨s, v, -, chosen, -⟩
    simp [unchosen] at chosen
  have start : ∀ f ∈ ownCoursesBy.filters, f.Sound ∧ ¬ f.Hollow := by
    simp only [ownCoursesBy, List.forall_mem_cons]
    exact ⟨fresh rfl (List.forall_mem_nil _) rfl, fresh rfl trivial rfl,
      fresh rfl wellFormed_everyDate rfl, fresh rfl trivial rfl, List.forall_mem_nil _⟩
  have flat : ∀ t ∈ manyTurns, ∀ v, t.Offers v → ¬ v.Hollow := by
    simp only [manyTurns, List.forall_mem_cons]
    refine ⟨?_, fun v never => never.elim, ?_, ?_, List.forall_mem_nil _⟩
    · rintro v ⟨⟩
      simp [Json.Hollow, Json.ofInt]
    · intro v offered
      cases offered with
      | applyAll mem =>
        simp only [List.mem_cons, List.not_mem_nil, or_false] at mem
        rcases mem with rfl | rfl | rfl <;> exact id
    · intro v offered
      cases offered with
      | restore mem =>
        simp only [List.mem_cons, List.not_mem_nil, or_false] at mem
        rcases mem with rfl | rfl
        · simp [Json.Hollow, Json.ofInt]
        · exact id
  have lists : ∀ st s, .init st s ∈ manyTurns → st.ListsScalars := by
    intro st s mem
    obtain ⟨rfl, -⟩ : st = twoCategories ∧ s = {} := by simpa [manyTurns] using mem
    rintro n bound rows ⟨⟩
    simp only [List.forall_mem_cons]
    refine ⟨?_, ?_, List.forall_mem_nil _⟩ <;> rintro o ⟨⟩ <;> rfl
  obtain ⟨renders, taken⟩ :=
    accepted_renders (fun f mem => (start f mem).1) manyTurns lists .postgres 0
  have hollow := taken (fun f mem => (start f mem).2) flat
  refine ⟨start, flat, by decide +kernel, renders.mpr fun f mem => ⟨hollow f mem, ?_⟩⟩
  exact not_untimely_of_late (by decide)

/-- A list of empty lists is taken by a choice without options, and then nothing renders. -/
example :
    let c := ownCoursesBy.play [.user (.apply "category" (.array [.array []]))]
    (c.applied.map (·.name), (c.render .sqlite 0).1.toOption.isSome) =
      (["category", "enrolled"], false) := by
  decide +kernel

end Collection

end Filter

end Reports
