import Reports.Filter.Collection
import Mathlib.Data.List.Forall2
import Mathlib.Data.List.Nodup
import Mathlib.Logic.Relation

/-! What users can do to the filters of a report. They choose values; whatever they choose and in
whichever way, the conditions stay as they are and always apply. -/
namespace Reports

/-- The same filter, with another value chosen unless it is a condition. -/
inductive Filter.Chosen : Filter → Filter → Prop
  | kept (f : Filter) : Chosen f f
  | chosen {f : Filter} (value : Json) : f.isCondition = false →
    Chosen f { f with raw := some value }

namespace Filter.Chosen

variable {f g h : Filter}

theorem trans (first : f.Chosen g) (second : g.Chosen h) : f.Chosen h := by
  cases first with
  | kept => exact second
  | chosen value free =>
    cases second with
    | kept => exact .chosen value free
    | chosen value' _ => exact .chosen value' free

theorem name (chosen : f.Chosen g) : g.name = f.name := by cases chosen <;> rfl

theorem isCondition (chosen : f.Chosen g) : g.isCondition = f.isCondition := by cases chosen <;> rfl

theorem eq_of_isCondition (chosen : f.Chosen g) (condition : f.isCondition = true) : g = f := by
  cases chosen with
  | kept => rfl
  | chosen value free => exact absurd condition (by simp [free])

end Filter.Chosen

namespace Filter.Collection

/-- The second collection has the filters of the first, with values that users chose since. -/
structure ChosenInto (c c' : Collection) : Prop where
  context : c'.context = c.context
  filters : List.Forall₂ Chosen c.filters c'.filters

namespace ChosenInto

variable {c c' c'' : Collection}

theorem refl (c : Collection) : c.ChosenInto c :=
  ⟨rfl, List.forall₂_same.mpr fun f _ => .kept f⟩

theorem trans (h : c.ChosenInto c') (h' : c'.ChosenInto c'') : c.ChosenInto c'' := by
  refine ⟨h'.context.trans h.context, ?_⟩
  have first := h.filters
  have later := h'.filters
  generalize c.filters = fs, c'.filters = gs, c''.filters = hs at first later
  induction first generalizing hs with
  | nil =>
    cases later
    exact .nil
  | cons here _ ih =>
    cases later with
    | cons there rest => exact .cons (here.trans there) (ih _ rest)

end ChosenInto

theorem setRaw_ok {f g : Filter} {value : Json} (stored : f.setRaw value = .ok g) :
    ∃ v, f.handler.validate f.name value = .ok v ∧ g = { f with raw := some v } := by
  rw [Filter.setRaw] at stored
  cases checked : f.handler.validate f.name value with
  | error e =>
    rw [checked] at stored
    cases stored
  | ok v =>
    rw [checked] at stored
    cases stored
    exact ⟨v, rfl, rfl⟩

/-- Applying a value changes nothing, or stores the value for the filter of that name. -/
theorem apply_cases {c c' : Collection} {name : String} {value : Json} {b : Bool}
    (applied : c.apply name value = .ok (b, c')) :
    b = false ∧ c' = c ∨ b = true ∧ ∃ f g, c.get? name = some f ∧
      isEmptyInput value = false ∧ f.isCondition = false ∧ f.setRaw value = .ok g ∧
      c' = c.replace name g := by
  unfold apply at applied
  split at applied
  · cases applied
    exact .inl ⟨rfl, rfl⟩
  · next some =>
    split at applied
    · cases applied
    · next f found =>
      split at applied
      · cases applied
        exact .inl ⟨rfl, rfl⟩
      · next free =>
        cases stored : f.setRaw value with
        | error e =>
          rw [stored] at applied
          cases applied
        | ok g =>
          rw [stored] at applied
          cases applied
          exact .inr ⟨rfl, f, g, found, Bool.eq_false_iff.mpr some, Bool.eq_false_iff.mpr free,
            stored, rfl⟩

theorem load_cases {c c' : Collection} {store : UserStore} {b : Bool} {events : List Event}
    (loaded : c.load store = .ok (b, c', events)) :
    b = false ∧ c' = c ∨ b = true ∧ ∃ text s, store.get? c.storeKey = some text ∧
      State.read? text = some s ∧ c' = (c.restore s).1 := by
  unfold load at loaded
  split at loaded
  · cases loaded
    exact .inl ⟨rfl, rfl⟩
  · next text kept =>
    split at loaded
    · cases loaded
    · next s read =>
      cases loaded
      exact .inr ⟨rfl, text, s, kept, read, rfl⟩

theorem replaceFirst_chosen {name : String} {fs : List Filter} {f g : Filter}
    (found : fs.find? (fun f => f.name == name) = some f) (chosen : f.Chosen g) :
    List.Forall₂ Chosen fs (replaceFirst name g fs) := by
  induction fs with
  | nil => cases found
  | cons first rest ih =>
    by_cases here : first.name = name
    · rw [List.find?_cons_of_pos (by simp [here])] at found
      cases found
      rw [replaceFirst, if_pos here]
      exact .cons chosen (List.forall₂_same.mpr fun f _ => .kept f)
    · rw [List.find?_cons_of_neg (by simp [here])] at found
      rw [replaceFirst, if_neg here]
      exact .cons (.kept first) (ih found)

theorem apply_chosen {c c' : Collection} {name : String} {value : Json} {b : Bool}
    (applied : c.apply name value = .ok (b, c')) : c.ChosenInto c' := by
  rcases apply_cases applied with ⟨-, rfl⟩ | ⟨-, f, g, found, -, free, stored, rfl⟩
  · exact .refl _
  · obtain ⟨v, -, rfl⟩ := setRaw_ok stored
    exact ⟨rfl, replaceFirst_chosen found (.chosen v free)⟩

/-- What a user can have done to a collection, with any names and values. -/
inductive UserAction
  | apply (name : String) (value : Json)
  | applyAll (entries : List (String × Json))
  | restore (state : State)
  | load (store : UserStore)

/-- The collection after an operation, also when that failed. One value is checked before it is
stored, and a saved state is read before any of it is, so their refusals carry no collection. -/
def perform (c : Collection) : UserAction → Collection
  | .apply name value =>
    match c.apply name value with
    | .ok (_, c') => c'
    | .error _ => c
  | .applyAll entries => (c.applyAll 0 entries).2
  | .restore state => (c.restore state).1
  | .load store =>
    match c.load store with
    | .ok (_, c', _) => c'
    | .error _ => c

def run (c : Collection) (actions : List UserAction) : Collection := actions.foldl perform c

inductive UserAction.Offers : UserAction → Json → Prop
  | apply {name : String} {value : Json} : Offers (.apply name value) value
  | applyAll {entries : List (String × Json)} {e : String × Json} :
    e ∈ entries → Offers (.applyAll entries) e.2
  | restore {state : State} {e : String × Json} : e ∈ state.values →
    Offers (.restore state) e.2
  | load {store : UserStore} {key text : String} {state : State} {e : String × Json} :
    store.get? key = some text → State.read? text = some state → e ∈ state.values →
      Offers (.load store) e.2

def Applies (V : Json → Prop) (c c' : Collection) : Prop :=
  ∃ name value b, V value ∧ c.apply name value = .ok (b, c')

section Applies

open Relation (ReflTransGen)

variable {V : Json → Prop} {c c' : Collection} {entries : List (String × Json)}

theorem chosen_of_applies (applies : ReflTransGen (Applies V) c c') : c.ChosenInto c' := by
  induction applies with
  | refl => exact .refl c
  | tail _ step ih =>
    obtain ⟨name, value, b, -, applied⟩ := step
    exact ih.trans (apply_chosen applied)

theorem applies_applyAll (c : Collection) (n : Nat) (offered : ∀ e ∈ entries, V e.2) :
    ReflTransGen (Applies V) c (c.applyAll n entries).2 := by
  induction entries generalizing c n with
  | nil => exact .refl
  | cons e rest ih =>
    obtain ⟨here, others⟩ := List.forall_mem_cons.mp offered
    rw [applyAll]
    split
    · next applied => exact .head ⟨e.1, e.2, _, here, applied⟩ (ih _ _ others)
    · exact .refl

theorem applies_restoreEntries (c : Collection) (offered : ∀ e ∈ entries, V e.2) :
    ReflTransGen (Applies V) c (c.restoreEntries entries).1 := by
  induction entries generalizing c with
  | nil => exact .refl
  | cons e rest ih =>
    obtain ⟨here, others⟩ := List.forall_mem_cons.mp offered
    rw [restoreEntries]
    split
    · next applied => exact .head ⟨e.1, e.2, _, here, applied⟩ (ih _ others)
    · exact ih c others

/-- Every operation applies values, one after the other, that it has for filters. -/
theorem applies_perform (c : Collection) (a : UserAction) :
    ReflTransGen (Applies a.Offers) c (c.perform a) := by
  cases a with
  | apply name value =>
    rw [perform]
    split
    · next applied => exact .single ⟨name, value, _, .apply, applied⟩
    · exact .refl
  | applyAll entries => exact c.applies_applyAll 0 fun e mem => .applyAll mem
  | restore state => exact c.applies_restoreEntries fun e mem => .restore mem
  | load store =>
    rw [perform]
    split
    · next loaded =>
      rcases load_cases loaded with ⟨-, rfl⟩ | ⟨-, text, state, kept, read, rfl⟩
      · exact .refl
      · exact c.applies_restoreEntries fun e mem => .load kept read mem
    · exact .refl

end Applies

theorem perform_chosen (c : Collection) (a : UserAction) : c.ChosenInto (c.perform a) :=
  chosen_of_applies (c.applies_perform a)

theorem run_chosen (c : Collection) (actions : List UserAction) : c.ChosenInto (c.run actions) := by
  induction actions generalizing c with
  | nil => exact .refl c
  | cons a rest ih => exact (c.perform_chosen a).trans (ih _)

def conditions (c : Collection) : List Filter := c.filters.filter (·.isCondition)

theorem ChosenInto.conditions {c c' : Collection} (chosen : c.ChosenInto c') :
    c'.conditions = c.conditions := by
  have filters := chosen.filters
  rw [Collection.conditions, Collection.conditions]
  generalize c.filters = fs, c'.filters = gs at filters
  induction filters with
  | nil => rfl
  | @cons f g fs gs here _ ih =>
    cases condition : f.isCondition with
    | true =>
      have same := here.eq_of_isCondition condition
      subst same
      rw [List.filter_cons_of_pos condition, List.filter_cons_of_pos condition, ih]
    | false =>
      have free : ¬g.isCondition = true := by simp [here.isCondition, condition]
      rw [List.filter_cons_of_neg free, List.filter_cons_of_neg (by simp [condition]), ih]

theorem ChosenInto.names {c c' : Collection} (chosen : c.ChosenInto c') :
    c'.filters.map (·.name) = c.filters.map (·.name) := by
  have filters := chosen.filters
  generalize c.filters = fs, c'.filters = gs at filters
  induction filters with
  | nil => rfl
  | cons here _ ih => rw [List.map_cons, List.map_cons, here.name, ih]

theorem mem_applied_of_mem_conditions {c : Collection} {f : Filter} (mem : f ∈ c.conditions) :
    f ∈ c.applied := by
  obtain ⟨inside, condition⟩ := List.mem_filter.mp mem
  exact List.mem_filter.mpr ⟨inside, by simp [isApplied, condition]⟩

theorem mem_state {c : Collection} {e : String × Json} (mem : e ∈ c.state.values) :
    ∃ f ∈ c.filters, f.isCondition = false ∧ f.name = e.1 ∧ f.raw = some e.2 := by
  obtain ⟨f, inside, entry⟩ := List.mem_filterMap.mp (Ascending.mem_of_mem_ofList mem)
  by_cases condition : f.isCondition = true
  · rw [if_pos condition] at entry
    cases entry
  · rw [if_neg condition, Option.map_eq_some_iff] at entry
    obtain ⟨v, chosen, rfl⟩ := entry
    exact ⟨f, inside, Bool.eq_false_iff.mpr condition, rfl, chosen⟩

theorem ne_name_of_mem_state {c : Collection} (distinct : (c.filters.map (·.name)).Nodup)
    {f : Filter} (mem : f ∈ c.conditions) {e : String × Json} (entry : e ∈ c.state.values) :
    e.1 ≠ f.name := by
  obtain ⟨inside, condition⟩ := List.mem_filter.mp mem
  obtain ⟨g, hg, free, name, -⟩ := mem_state entry
  intro same
  obtain rfl : g = f := List.inj_on_of_nodup_map distinct hg inside (name.trans same)
  simp [condition] at free

end Filter.Collection

open Sql (Dialect Template)

namespace Filter

theorem Condition.exists_template (k : Condition) (selector : String) (ctx : Context)
    (d : Dialect) :
    ∃ t : Template, (k.predicate selector ctx).template d = .ok t := by
  cases k with
  | loggedInUser => exact ⟨_, rfl⟩
  | currentCourse =>
    rw [Condition.predicate]
    split <;> exact ⟨_, rfl⟩
  | myGroups =>
    rw [Condition.predicate]
    cases groups : ctx.groupIds with
    | nil => exact ⟨_, rfl⟩
    | cons g rest => exact ⟨_, rfl⟩
  | enrolledCourses => exact ⟨_, rfl⟩

theorem exists_predicate {f : Filter} (condition : f.isCondition = true) (ctx : Context)
    (d : Dialect) :
    ∃ (p : Sql.Predicate) (t : Template), f.predicate? ctx = .ok (some p) ∧
    p.template d = .ok t := by
  rw [isCondition] at condition
  cases handler : f.handler with
  | condition k =>
    obtain ⟨t, template⟩ := k.exists_template f.selector ctx d
    exact ⟨_, t, by simp [predicate?, handler, Handler.predicate?], template⟩
  | value => simp [handler, Handler.isCondition] at condition
  | text => simp [handler, Handler.isCondition] at condition
  | date functions => simp [handler, Handler.isCondition] at condition
  | select selection => simp [handler, Handler.isCondition] at condition

namespace Collection

/-- Whatever two users do, they look through the same conditions: all apply, each restricts to one
template that is filled wherever the counter stands, and the saved choices name none. -/
theorem conditions_immune (c : Collection) (xs ys : List UserAction) (d : Dialect) :
    (c.run xs).conditions = (c.run ys).conditions ∧
      (∀ f ∈ (c.run xs).conditions, f ∈ (c.run xs).applied ∧ f ∈ (c.run ys).applied ∧
        ∃ (p : Sql.Predicate) (t : Template), f.predicate? (c.run xs).context = .ok (some p) ∧
          f.predicate? (c.run ys).context = .ok (some p) ∧ ∀ n, p.render d n = t.fill n) ∧
      (∀ e ∈ (c.run xs).state.values, ∃ f ∈ (c.run xs).filters,
        f.isCondition = false ∧ f.name = e.1 ∧ f.raw = some e.2) ∧
      ((c.filters.map (·.name)).Nodup → ∀ f ∈ (c.run xs).conditions,
        ∀ e ∈ (c.run xs).state.values, e.1 ≠ f.name) := by
  have first := c.run_chosen xs
  have second := c.run_chosen ys
  have same : (c.run xs).conditions = (c.run ys).conditions :=
    first.conditions.trans second.conditions.symm
  refine ⟨same, fun f mem => ?_, fun e mem => mem_state mem, fun distinct f mem e entry => ?_⟩
  · obtain ⟨p, t, given, template⟩ := exists_predicate (List.mem_filter.mp mem).2 c.context d
    refine ⟨mem_applied_of_mem_conditions mem, mem_applied_of_mem_conditions (same ▸ mem), p,
      t, ?_, ?_, ?_⟩
    · rw [first.context, given]
    · rw [second.context, given]
    · intro n
      rw [Sql.Predicate.render, template]
  · exact ne_name_of_mem_state (first.names.symm ▸ distinct) mem entry

def ownCourses : Collection :=
  { identifier := "courses", context := { userId := 7 }
    filters := [Filter.new "category" "c.category",
      (Filter.new "enrolled" "c.id").withHandler (.condition .enrolledCourses)] }

/-- One user chooses a category, tries to choose for the condition and names a filter that is none;
another restores a state with an entry for the condition. -/
theorem conditions_immune_ownCourses :
    let xs : List UserAction := [.apply "enrolled" (.ofInt 9), .applyAll [("category", .ofInt 3),
      ("enrolled", .null), ("owner", .ofInt 1), ("category", .ofInt 4)]]
    let ys : List UserAction := [.restore ⟨[("enrolled", .string "all")]⟩, .load .empty]
    let f := (Filter.new "enrolled" "c.id").withHandler (.condition .enrolledCourses)
    f ∈ (ownCourses.run xs).conditions ∧ f ∈ (ownCourses.run ys).applied ∧
      ("category", .ofInt 3) ∈ (ownCourses.run xs).state.values ∧
      (ownCourses.filters.map (·.name)).Nodup ∧ "category" ≠ f.name := by
  intro xs ys f
  have condition : f ∈ (ownCourses.run xs).conditions := List.mem_singleton_self f
  have chosen : ("category", Json.ofInt 3) ∈ (ownCourses.run xs).state.values :=
    List.mem_singleton_self _
  have distinct : (ownCourses.filters.map (·.name)).Nodup := by decide
  have immune := conditions_immune ownCourses xs ys .sqlite
  exact ⟨condition, (immune.2.1 f condition).2.1, chosen, distinct,
    immune.2.2.2 distinct f condition _ chosen⟩

end Collection

end Filter

end Reports
