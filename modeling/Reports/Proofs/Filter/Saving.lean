import Mathlib
import Reports.Proofs.Filter.Idempotence

/-! Choices that are saved and restored. Every filter comes back as it was, except a text filter
that has taken blanks: it restricts nothing in either case, but before it counts as applied. -/
namespace Reports

namespace Filter

/-- Options are scalar, and none is null. -/
def Selection.Simple (s : Selection) : Prop :=
  ∀ o ∈ s.options, o.value.isScalar = true ∧ o.value ≠ .null

namespace Selection

variable {s : Selection} {value v : Json}

theorem Simple.flat (simple : s.Simple) : s.Flat := by
  intro o mem items list
  have scalar := (simple o mem).1
  rw [list] at scalar
  cases scalar

theorem says_of_findOption? (simple : s.Simple) (some : Collection.isEmptyInput value = false)
    (found : s.findOption? value = .some v) : Collection.isEmptyInput v = false := by
  obtain ⟨o, mem, rfl, same⟩ := findOption?_eq_some found
  obtain ⟨scalar, known⟩ := simple o mem
  cases text : o.value with
  | string t =>
    rw [text] at same
    -- Options are found by their text, so a number or a list may have found this one.
    by_cases plain : ∃ u, value = .string u
    · obtain ⟨u, rfl⟩ := plain
      obtain rfl : t = u := same
      exact some
    · obtain ⟨c, rest, chars, -⟩ := Json.plain_head (fun u is => plain ⟨u, is⟩)
      rw [← same] at chars
      rw [Collection.isEmptyInput, Bool.eq_false_iff, Ne, String.isEmpty_iff]
      rintro rfl
      cases chars
  | null => exact absurd text known
  | array items => simp [text, Json.isScalar] at scalar
  | object ms => simp [text, Json.isScalar] at scalar
  | bool b => rfl
  | number n => rfl

theorem Takes.not_empty (simple : s.Simple) (some : Collection.isEmptyInput value = false)
    (takes : s.Takes value v) : Collection.isEmptyInput v = false := by
  cases takes with
  | all => decide
  | unknown => exact some
  | several list _ _ each =>
    subst list
    cases each with
    | nil => exact some
    | cons => rfl
  | single _ _ _ found => exact says_of_findOption? simple some found

end Selection

def isBlank (f : Filter) : Bool :=
  match f.handler, f.raw with
  | .text, some (.string s) => s.isEmpty
  | _, _ => false

def resaved (f : Filter) : Filter := if f.isBlank then f.clear else f

/-- The stored value is its own stored form; only blank text is passed over. -/
structure Settled (f : Filter) : Prop where
  simple : ∀ s, f.handler = .select s → s.Simple
  condition : f.isCondition = true → f.raw = none
  again : ∀ v, f.raw = some v →
    f.handler.validate f.name v = .ok v ∧ Collection.isEmptyInput v = f.isBlank

theorem Settled.setRaw_again {f : Filter} (settled : f.Settled) {v : Json}
    (chosen : f.raw = some v) :
    f.setRaw v = .ok f ∧ f.clear.setRaw v = .ok f := by
  obtain ⟨checked, -⟩ := settled.again v chosen
  have back : { f with raw := some v } = f := by rw [← chosen]
  have cleared : f.clear.handler.validate f.clear.name v = .ok v := checked
  rw [setRaw, setRaw, checked, cleared]
  exact ⟨congrArg Except.ok back, congrArg Except.ok back⟩

theorem lasting_settled : Collection.Lasting (fun _ => True) Settled := by
  intro f g value settled _ some free stored
  obtain ⟨v, checked, rfl⟩ := Collection.setRaw_ok stored
  refine ⟨settled.simple, fun condition => absurd condition (Bool.eq_false_iff.mp free), ?_⟩
  rintro _ ⟨⟩
  have flat : f.handler.Flat := fun s handler => (settled.simple s handler).flat
  refine ⟨Handler.validate_again flat checked, ?_⟩
  simp only [isBlank]
  cases handler : f.handler with
  | value =>
    rw [handler] at checked
    cases checked
    exact some
  | text =>
    rw [handler] at checked
    -- What is stored is trimmed, and may be empty though the value was not.
    cases value with
    | string s =>
      cases checked
      rfl
    | number n =>
      cases checked
      rfl
    | _ => cases checked
  | date functions =>
    rw [handler] at checked
    cases value with
    | string t =>
      by_cases listed : functions.contains t = true
      · rw [Handler.validate, if_pos listed] at checked
        cases checked
        exact some
      · rw [Handler.validate, if_neg listed] at checked
        cases checked
    | _ => cases checked
  | select s =>
    rw [handler] at checked
    exact (Selection.validate_eq_ok.mp checked).not_empty (settled.simple s handler) some
  | condition k => simp [isCondition, handler, Handler.isCondition] at free

@[simp] theorem resaved_name (f : Filter) : f.resaved.name = f.name := by
  unfold resaved
  split <;> rfl

@[simp] theorem resaved_clause (f : Filter) : f.resaved.clause = f.clause := by
  unfold resaved
  split <;> rfl

theorem resaved_eq_self {f : Filter} (said : f.isBlank = false) : f.resaved = f := by
  rw [resaved, if_neg (Bool.eq_false_iff.mp said)]

theorem resaved_of_unset {f : Filter} (unset : f.raw = none) : f.resaved = f.clear := by
  have said : f.isBlank = false := by
    unfold isBlank
    split
    · next chosen => simp [unset] at chosen
    · rfl
  rw [resaved_eq_self said, clear, ← unset]

theorem isBlank_iff {f : Filter} :
    f.isBlank = true ↔ f.handler = .text ∧ f.raw = some (.string "") := by
  unfold isBlank
  split
  · next handler chosen => simp [handler, chosen, String.isEmpty_iff]
  · next other =>
    refine iff_of_false Bool.false_ne_true ?_
    rintro ⟨handler, chosen⟩
    exact other _ handler chosen

/-- The filter while values are put back: it has its own again once its name has come. -/
def putBack (names : List String) (f : Filter) : Filter :=
  if f.name ∈ names then f.resaved else f.clear

theorem putBack_name (names : List String) (f : Filter) : (f.putBack names).name = f.name := by
  unfold putBack
  split
  · exact f.resaved_name
  · rfl

theorem putBack_append_of_ne {names : List String} {name : String} {f : Filter}
    (other : f.name ≠ name) :
    f.putBack (names ++ [name]) = f.putBack names := by
  simp [putBack, other]

theorem putBack_append_self (names : List String) (f : Filter) :
    f.putBack (names ++ [f.name]) = f.resaved := if_pos (by simp)

theorem predicate?_resaved (f : Filter) (ctx : Context) :
    f.resaved.predicate? ctx = f.predicate? ctx := by
  cases blank : f.isBlank with
  | false => rw [resaved_eq_self blank]
  | true =>
    obtain ⟨handler, chosen⟩ := isBlank_iff.mp blank
    simp [resaved, blank, predicate?, clear, isCondition, Handler.isCondition, effectiveValue?,
      defaultValue?, Handler.defaultValue?, Handler.predicate?, handler, chosen]

namespace Collection

theorem renderFilters_resaved (d : Sql.Dialect) (ctx : Context) (fs : List Filter) :
    renderFilters d ctx (fs.map resaved) = renderFilters d ctx fs := by
  induction fs with
  | nil => rfl
  | cons f rest ih =>
    rw [List.map_cons, renderFilters, renderFilters, predicate?_resaved, ih, resaved_clause]

theorem get?_of_mem {c : Collection} (distinct : (c.filters.map (·.name)).Nodup) {f : Filter}
    (mem : f ∈ c.filters) : c.get? f.name = some f := by
  cases found : c.get? f.name with
  | none => exact absurd (List.find?_eq_none.mp found f mem) (by simp)
  | some g =>
    have same : g.name = f.name := by simpa using List.find?_some found
    rw [List.inj_on_of_nodup_map distinct (List.mem_of_find?_eq_some found) mem same]

theorem replaceFirst_eq_map {name : String} {g : Filter} {fs : List Filter}
    (distinct : (fs.map (·.name)).Nodup) :
    replaceFirst name g fs = fs.map fun f => if f.name = name then g else f := by
  induction fs with
  | nil => rfl
  | cons f rest ih =>
    obtain ⟨new, distinct⟩ := List.nodup_cons.mp distinct
    rw [replaceFirst, List.map_cons]
    split
    · next here =>
      subst here
      have others : ∀ h ∈ rest, (if h.name = f.name then g else h) = h := by
        intro h mem
        have other : h.name ≠ f.name := fun same => new (List.mem_map.mpr ⟨h, mem, same⟩)
        rw [if_neg other]
      rw [List.map_congr_left others, List.map_id']
    · rw [ih distinct]

theorem name_mem_state {c : Collection} {f : Filter} (mem : f ∈ c.filters)
    (free : f.isCondition = false) {v : Json} (chosen : f.raw = some v) :
    f.name ∈ c.state.values.map Prod.fst := by
  refine Ascending.mem_keys_ofList.mpr (List.mem_map.mpr ⟨(f.name, v), ?_, rfl⟩)
  exact List.mem_filterMap.mpr ⟨f, mem, by simp [free, chosen]⟩

/-- The collection while its saved values are put back: those of these names are. -/
def partly (c : Collection) (names : List String) : Collection :=
  { c with filters := c.filters.map (putBack names) }

theorem names_partly (c : Collection) (names : List String) :
    (c.partly names).filters.map (·.name) = c.filters.map (·.name) := by
  rw [partly, List.map_map]
  exact List.map_congr_left fun f _ => putBack_name names f

section Distinct

variable {c : Collection} (distinct : (c.filters.map (·.name)).Nodup)

include distinct

theorem partly_of_isBlank (names : List String) {f : Filter} (mem : f ∈ c.filters)
    (blank : f.isBlank = true) : c.partly (names ++ [f.name]) = c.partly names := by
  have same : ∀ g ∈ c.filters, g.putBack (names ++ [f.name]) = g.putBack names := by
    intro g inside
    by_cases this : g.name = f.name
    · obtain rfl := List.inj_on_of_nodup_map distinct inside mem this
      simp [putBack, resaved, blank]
    · exact putBack_append_of_ne this
  rw [partly, partly, List.map_congr_left same]

theorem replace_partly (names : List String) {f : Filter} (mem : f ∈ c.filters)
    (said : f.isBlank = false) :
    (c.partly names).replace f.name f = c.partly (names ++ [f.name]) := by
  have same : ∀ g ∈ c.filters,
      (if (g.putBack names).name = f.name then f else g.putBack names) =
        g.putBack (names ++ [f.name]) := by
    intro g inside
    rw [putBack_name]
    split
    · next this =>
      obtain rfl := List.inj_on_of_nodup_map distinct inside mem this
      rw [putBack_append_self, resaved_eq_self said]
    · next this => rw [putBack_append_of_ne this]
  have now : (c.partly names).filters = c.filters.map (putBack names) := rfl
  rw [replace, replaceFirst_eq_map ((c.names_partly names).symm ▸ distinct), now, List.map_map]
  exact congrArg (fun fs => { c with filters := fs }) (List.map_congr_left same)

theorem apply_partly (names : List String) {f : Filter} (mem : f ∈ c.filters)
    (settled : f.Settled) (free : f.isCondition = false) {v : Json} (chosen : f.raw = some v) :
    ∃ b, (c.partly names).apply f.name v = .ok (b, c.partly (names ++ [f.name])) := by
  have empty : isEmptyInput v = f.isBlank := (settled.again v chosen).2
  cases blank : f.isBlank with
  | true =>
    -- Blank text is empty input: the collection stays, and that is what it should be.
    refine ⟨false, ?_⟩
    rw [apply, if_pos (empty.trans blank), partly_of_isBlank distinct names mem blank]
  | false =>
    -- Whether the filter has its value already or none yet, it takes the value as it was stored.
    refine ⟨true, ?_⟩
    have inside : f.putBack names ∈ (c.partly names).filters := List.mem_map_of_mem mem
    have found : (c.partly names).get? f.name = some (f.putBack names) :=
      f.putBack_name names ▸ get?_of_mem ((c.names_partly names).symm ▸ distinct) inside
    obtain ⟨other, stored⟩ :
        (f.putBack names).isCondition = false ∧ (f.putBack names).setRaw v = .ok f := by
      rw [putBack, resaved_eq_self blank]
      split
      · exact ⟨free, (settled.setRaw_again chosen).1⟩
      · exact ⟨free, (settled.setRaw_again chosen).2⟩
    rw [apply, if_neg (by simp [empty, blank]), found, ← replace_partly distinct names mem blank]
    simp only [other, Bool.false_eq_true, if_false, stored]
    rfl

/-- Entries of filters that would take their values again are put back one by one, none is stale. -/
theorem restoreEntries_partly (settled : ∀ f ∈ c.filters, f.Settled)
    (entries : List (String × Json)) (saved : ∀ e ∈ entries, ∃ f ∈ c.filters,
      f.isCondition = false ∧ f.name = e.1 ∧ f.raw = some e.2)
    (names : List String) :
    (c.partly names).restoreEntries entries = (c.partly (names ++ entries.map Prod.fst), []) := by
  induction entries generalizing names with
  | nil => rw [restoreEntries, List.map_nil, List.append_nil]
  | cons e rest ih =>
    obtain ⟨name, v⟩ := e
    obtain ⟨f, mem, free, rfl, chosen⟩ := saved _ List.mem_cons_self
    obtain ⟨b, applied⟩ := apply_partly distinct names mem (settled f mem) free chosen
    rw [List.map_cons, List.append_cons, restoreEntries, applied]
    exact ih (fun e mem => saved e (List.mem_cons_of_mem _ mem)) _

theorem restore_partly (settled : ∀ f ∈ c.filters, f.Settled) :
    (c.partly []).restore c.state = ({ c with filters := c.filters.map resaved }, []) := by
  rw [restore, restoreEntries_partly distinct settled _ (fun e mem => mem_state mem) [],
    List.nil_append]
  have all : ∀ f ∈ c.filters, f.putBack (c.state.values.map Prod.fst) = f.resaved := by
    intro f mem
    rw [putBack]
    split
    · rfl
    · next missing =>
      have unset : f.raw = none := by
        by_contra some
        obtain ⟨v, chosen⟩ := Option.ne_none_iff_exists'.mp some
        have free : f.isCondition = false :=
          Bool.eq_false_iff.mpr fun condition => some ((settled f mem).condition condition)
        exact missing (name_mem_state mem free chosen)
      exact (resaved_of_unset unset).symm
  rw [partly, List.map_congr_left all]

end Distinct

/-- Nothing is chosen yet; every filter has a name of its own, and options are simple. -/
structure Fresh (c : Collection) : Prop where
  distinct : (c.filters.map (·.name)).Nodup
  unset : ∀ f ∈ c.filters, f.raw = none
  simple : ∀ f ∈ c.filters, ∀ s, f.handler = .select s → s.Simple

theorem fresh_new (identifier : String) (ctx : Context) : (new identifier ctx).Fresh where
  distinct := List.nodup_nil
  unset := fun _ mem => nomatch mem
  simple := fun _ mem => nomatch mem

theorem add_ok {c c' : Collection} {f : Filter} (added : c.add f = .ok c') :
    c.has f.name = false ∧ c' = { c with filters := c.filters ++ [f] } := by
  unfold add at added
  split at added
  · cases added
  · next new =>
    cases added
    exact ⟨Bool.eq_false_iff.mpr new, rfl⟩

theorem nodup_add {c c' : Collection} {f : Filter} (distinct : (c.filters.map (·.name)).Nodup)
    (added : c.add f = .ok c') : (c'.filters.map (·.name)).Nodup := by
  obtain ⟨new, rfl⟩ := add_ok added
  rw [List.map_append, List.nodup_append]
  refine ⟨distinct, List.nodup_singleton _, fun name mem other here same => ?_⟩
  obtain rfl : other = f.name := List.mem_singleton.mp here
  obtain ⟨g, inside, rfl⟩ := List.mem_map.mp mem
  rw [has, ← same, get?_of_mem distinct inside] at new
  cases new

theorem Fresh.addAll {c c' : Collection} (fresh : c.Fresh) {fs : List Filter}
    (unset : ∀ f ∈ fs, f.raw = none)
    (simple : ∀ f ∈ fs, ∀ s, f.handler = .select s → s.Simple)
    (added : c.addAll fs = .ok c') :
    c'.Fresh := by
  induction fs generalizing c with
  | nil =>
    cases added
    exact fresh
  | cons f rest ih =>
    obtain ⟨unset, unsets⟩ := List.forall_mem_cons.mp unset
    obtain ⟨simple, simples⟩ := List.forall_mem_cons.mp simple
    obtain ⟨d, once, added⟩ := Effect.ok_of_bind added
    have distinct := nodup_add fresh.distinct once
    obtain ⟨-, rfl⟩ := add_ok once
    refine ih ⟨distinct, ?_, ?_⟩ unsets simples added
    · exact List.forall_mem_append.mpr ⟨fresh.unset, List.forall_mem_singleton.mpr unset⟩
    · exact List.forall_mem_append.mpr ⟨fresh.simple, List.forall_mem_singleton.mpr simple⟩

theorem Fresh.settled_run {c : Collection} (fresh : c.Fresh) (as : List UserAction) :
    ∀ f ∈ (c.run as).filters, f.Settled := by
  refine forall_run lasting_settled as (fun f mem => ?_) (fun _ _ _ _ => trivial)
  have unset := fresh.unset f mem
  exact ⟨fresh.simple f mem, fun _ => unset, fun v chosen =>
    absurd (unset ▸ chosen) (by simp)⟩

theorem Fresh.partly_run {c : Collection} (fresh : c.Fresh) (as : List UserAction) :
    (c.run as).partly [] = c := by
  have cleared : (c.run as).filters.map (putBack []) = c.filters := by
    have chosen := (c.run_chosen as).filters
    have unset := fresh.unset
    generalize c.filters = fs, (c.run as).filters = gs at chosen unset
    induction chosen with
    | nil => rfl
    | @cons f g fs gs here _ ih =>
      obtain ⟨unset, unsets⟩ := List.forall_mem_cons.mp unset
      have back : { f with raw := none } = f := by rw [← unset]
      have same : g.clear = f := by
        cases here <;> exact back
      rw [List.map_cons, ih unsets, putBack, if_neg List.not_mem_nil, same]
  rw [partly, cleared, c.run_frame as]

theorem map_resaved {fs : List Filter} (said : ∀ f ∈ fs, f.isBlank = false) :
    fs.map resaved = fs := by
  have same : ∀ f ∈ fs, f.resaved = id f := fun f mem => resaved_eq_self (said f mem)
  rw [List.map_congr_left same, List.map_id]

theorem said_of_state_eq {c : Collection} (distinct : (c.filters.map (·.name)).Nodup)
    (same : ({ c with filters := c.filters.map resaved } : Collection).state = c.state) :
    ∀ f ∈ c.filters, f.isBlank = false := by
  intro f mem
  by_contra blank
  have blank : f.isBlank = true := by simpa using blank
  obtain ⟨handler, chosen⟩ := isBlank_iff.mp blank
  have free : f.isCondition = false := by simp [isCondition, handler, Handler.isCondition]
  have entry := name_mem_state mem free chosen
  rw [← same] at entry
  obtain ⟨e, saved, name⟩ := List.mem_map.mp entry
  obtain ⟨g, inside, -, again, value⟩ := mem_state saved
  obtain ⟨h, here, rfl⟩ := List.mem_map.mp inside
  obtain rfl : h = f := by
    refine List.inj_on_of_nodup_map distinct here mem ?_
    rw [← name, ← again, resaved_name]
  rw [resaved, if_pos blank] at value
  cases value

/-- Choices that are saved come back: whatever users did, restoring their choices in the fresh
collection drops none as stale and gives every filter its value again, except that blank text is
cleared. Both collections render the same; they have the same choices and the same filters applied
exactly when no text filter has taken blanks. The store gives back what restoring does as long as
the written choices can be read. -/
theorem restores_saved {c : Collection} (fresh : c.Fresh) (as : List UserAction) :
    let saved := c.run as
    let restored := c.restore saved.state
    restored = ({ saved with filters := saved.filters.map resaved }, []) ∧
      (∀ d, restored.1.render d = saved.render d) ∧
      (restored.1.state = saved.state ∧ restored.1.applied = saved.applied ∧
          restored.1.hasUserChoice = saved.hasUserChoice ↔
          ∀ f ∈ saved.filters, f.isBlank = false) ∧
      ∀ store, State.read? saved.state.text = some saved.state →
        c.load (saved.save store) = .ok (true, restored) := by
  intro saved restored
  have distinct : (saved.filters.map (·.name)).Nodup := (c.run_chosen as).names ▸ fresh.distinct
  have back : restored = ({ saved with filters := saved.filters.map resaved }, []) := by
    have put := restore_partly distinct (fresh.settled_run as)
    rwa [fresh.partly_run as] at put
  refine ⟨back, fun d => ?_, ⟨fun same => ?_, fun said => ?_⟩, fun store read => ?_⟩
  · rw [back, render, renderFilters_resaved]
    rfl
  · rw [back] at same
    exact said_of_state_eq distinct same.1
  · rw [back, map_resaved said]
    exact ⟨rfl, rfl, rfl⟩
  · have key : saved.storeKey = c.storeKey := by
      rw [storeKey, storeKey, show saved = _ from c.run_frame as]
    have kept : (saved.save store).get? c.storeKey = some saved.state.text := by
      rw [save, key, UserStore.get?, UserStore.set, OrderedMap.get?_insert, if_pos rfl]
    rw [load, kept]
    simp only [read]
    rfl

def searches : Collection :=
  { identifier := "searches", context := { userId := 7 }
    filters := [(Filter.new "name" "c.fullname").withHandler .text,
      (Filter.new "kind" "c.kind").withHandler
        (.select (.new (.fixed [⟨.ofInt 3, "Lecture"⟩, ⟨.ofInt 4, "Seminar"⟩])
          .expandOptions true)),
      (Filter.new "enrolled" "c.id").withHandler (.condition .enrolledCourses)] }

/-- Kinds chosen by their texts or themselves, and a name with blanks around it. -/
theorem restores_saved_searches :
    let as : List UserAction := [.apply "name" (.string " logic "),
      .applyAll [("enrolled", .ofInt 1), ("kind", .array [.string "4", .ofInt 3])]]
    let saved := searches.run as
    searches.Fresh ∧
      saved.state = ⟨[("kind", .array [.ofInt 4, .ofInt 3]), ("name", .string "logic")]⟩ ∧
      (searches.restore saved.state).1.state = saved.state ∧
      State.read? saved.state.text = some saved.state ∧
      searches.load (saved.save .empty) = .ok (true, searches.restore saved.state) := by
  intro as saved
  have fresh : searches.Fresh := by
    have added : (new "searches" { userId := 7 }).addAll searches.filters = .ok searches := by rfl
    refine (fresh_new _ _).addAll ?_ ?_ added
    · simp [searches, withHandler, Filter.new]
    · simp [searches, withHandler, Filter.new, Selection.Simple, Selection.new,
        Json.isScalar, Json.ofInt]
  have chosen : saved.state =
      ⟨[("kind", .array [.ofInt 4, .ofInt 3]), ("name", .string "logic")]⟩ := by
    rfl
  have read : State.read? saved.state.text = some saved.state := by
    rw [chosen]
    cbv
  have said : ∀ f ∈ saved.filters, f.isBlank = false := by decide
  obtain ⟨-, -, same, loads⟩ := restores_saved fresh as
  exact ⟨fresh, chosen, (same.mpr said).1, read, loads .empty read⟩

/-- Blank text is saved, and passed over when it is restored. -/
example :
    let saved := searches.run [.apply "name" (.string "  ")]
    saved.hasUserChoice = true ∧ (searches.restore saved.state).1.hasUserChoice = false := by
  decide

end Collection

end Filter

end Reports
