import Reports.Proofs.Filter.Saving

/-! All that can be done to a collection of filters, call by call: what stays true of the
collection, which calls leave it as it was, and what several values at once do to it. -/
namespace Reports.Filter

/-- The filter after an entry for its name, as far as the entry says something and is taken. -/
def taking (f : Filter) (e : String × Json) : Filter :=
  if f.name = e.1 ∧ Collection.isEmptyInput e.2 = false ∧ f.isCondition = false then
    (f.setRaw e.2).toOption.getD f
  else f

variable {f g : Filter} {e : String × Json} {entries : List (String × Json)}

theorem taking_of_ne (other : f.name ≠ e.1) : f.taking e = f := if_neg fun same => other same.1

theorem taking_name (f : Filter) (e : String × Json) : (f.taking e).name = f.name := by
  unfold taking
  split
  · cases stored : f.setRaw e.2 with
    | error => rfl
    | ok g =>
      obtain ⟨v, -, rfl⟩ := Collection.setRaw_ok stored
      rfl
  · rfl

theorem foldl_taking_name (f : Filter) (entries : List (String × Json)) :
    (entries.foldl taking f).name = f.name := by
  induction entries generalizing f with
  | nil => rfl
  | cons e rest ih => rw [List.foldl_cons, ih, taking_name]

theorem foldl_taking_of_absent (absent : ∀ e ∈ entries, f.name ≠ e.1) :
    entries.foldl taking f = f := by
  induction entries with
  | nil => rfl
  | cons e rest ih =>
    obtain ⟨other, others⟩ := List.forall_mem_cons.mp absent
    rw [List.foldl_cons, taking_of_ne other, ih others]

theorem foldl_taking_of_mem (distinct : (entries.map Prod.fst).Nodup) (mem : e ∈ entries)
    (same : f.name = e.1) : entries.foldl taking f = f.taking e := by
  induction entries with
  | nil => cases mem
  | cons first rest ih =>
    rw [List.map_cons, List.nodup_cons] at distinct
    obtain ⟨new, distinct⟩ := distinct
    rw [List.foldl_cons]
    -- Names are different, so the entries around this one are for other filters.
    rcases List.mem_cons.mp mem with rfl | later
    · refine foldl_taking_of_absent fun e there here => new ?_
      rw [taking_name, same] at here
      exact here ▸ List.mem_map_of_mem there
    · have other : f.name ≠ first.1 :=
        fun here => new (here ▸ same ▸ List.mem_map_of_mem later)
      rw [taking_of_ne other]
      exact ih distinct later

namespace Collection

def takingAll (c : Collection) (entries : List (String × Json)) : Collection :=
  { c with filters := c.filters.map fun f => entries.foldl taking f }

def accepts (c : Collection) (e : String × Json) : Bool := (c.apply e.1 e.2).isOk

variable {c c' : Collection}

theorem names_takingAll (c : Collection) (entries : List (String × Json)) :
    (c.takingAll entries).filters.map (·.name) = c.filters.map (·.name) := by
  rw [takingAll, List.map_map]
  exact List.map_congr_left fun f _ => foldl_taking_name f entries

theorem takingAll_cons (c : Collection) (e : String × Json) (rest : List (String × Json)) :
    c.takingAll (e :: rest) = (c.takingAll [e]).takingAll rest := by
  simp [takingAll]

theorem takingAll_congr {entries order : List (String × Json)}
    (same : ∀ f ∈ c.filters, entries.foldl taking f = order.foldl taking f) :
    c.takingAll entries = c.takingAll order :=
  congrArg (fun fs => { c with filters := fs }) (List.map_congr_left same)

theorem takingAll_nil (c : Collection) : c.takingAll [] = c := by simp [takingAll]

section Distinct

variable (distinct : (c.filters.map (·.name)).Nodup)

include distinct

theorem apply_effect (e : String × Json) :
    match c.apply e.1 e.2 with
    | .ok (_, c') => c' = c.takingAll [e]
    | .error _ => c.takingAll [e] = c := by
  have untouched (kept : ∀ f ∈ c.filters, f.taking e = f) : c.takingAll [e] = c :=
    (takingAll_congr kept).trans c.takingAll_nil
  unfold apply
  by_cases empty : isEmptyInput e.2 = true
  · rw [if_pos empty]
    refine (untouched fun f mem => if_neg ?_).symm
    simp [empty]
  rw [if_neg empty]
  cases found : c.get? e.1 with
  | none =>
    refine untouched fun f mem => taking_of_ne ?_
    simpa using List.find?_eq_none.mp found f mem
  | some f =>
    have name : f.name = e.1 := by simpa using List.find?_some found
    -- Names are different, so the entry is for this filter only.
    have only {g : Filter} (inside : g ∈ c.filters) (same : g.name = e.1) : g = f :=
      List.inj_on_of_nodup_map distinct inside (List.mem_of_find?_eq_some found)
        (same.trans name.symm)
    dsimp only
    cases condition : f.isCondition with
    | true =>
      rw [if_pos rfl]
      refine (untouched fun g inside => if_neg ?_).symm
      rintro ⟨same, -, free⟩
      rw [only inside same, condition] at free
      cases free
    | false =>
      rw [if_neg Bool.false_ne_true]
      have taken : f.taking e = (f.setRaw e.2).toOption.getD f :=
        if_pos ⟨name, by simpa using empty, condition⟩
      cases stored : f.setRaw e.2 with
      | error =>
        -- A refused value is not stored, so the filter of that name is untouched too.
        rw [stored] at taken
        refine untouched fun g inside => ?_
        by_cases same : g.name = e.1
        · rw [only inside same]
          exact taken
        · exact taking_of_ne same
      | ok h =>
        rw [stored] at taken
        change c.replace e.1 h = c.takingAll [e]
        rw [replace, replaceFirst_eq_map distinct]
        refine congrArg (fun fs => { c with filters := fs })
          (List.map_congr_left fun g inside => ?_)
        by_cases same : g.name = e.1
        · rw [if_pos same, only inside same]
          exact taken.symm
        · rw [if_neg same]
          exact (taking_of_ne same).symm

end Distinct

theorem restoreEntries_effect (distinct : (c.filters.map (·.name)).Nodup)
    (entries : List (String × Json)) : (c.restoreEntries entries).1 = c.takingAll entries := by
  induction entries generalizing c with
  | nil => exact c.takingAll_nil.symm
  | cons e rest ih =>
    have here := apply_effect distinct e
    have later := ih (c := c.takingAll [e]) (c.names_takingAll [e] ▸ distinct)
    rw [restoreEntries, takingAll_cons]
    split
    · next applied =>
      rw [applied] at here
      rw [here]
      exact later
    · next failed =>
      rw [failed] at here
      rw [here] at later ⊢
      exact later

theorem applyAll_effect (distinct : (c.filters.map (·.name)).Nodup)
    {entries : List (String × Json)} {n m : Nat} (applied : c.applyAll n entries = (.ok m, c')) :
    c' = c.takingAll entries := by
  induction entries generalizing c n with
  | nil =>
    cases applied
    exact (takingAll_nil _).symm
  | cons e rest ih =>
    have here := apply_effect distinct e
    rw [applyAll] at applied
    split at applied
    · next once =>
      rw [once] at here
      subst here
      rw [takingAll_cons]
      exact ih (c.names_takingAll [e] ▸ distinct) applied
    · cases applied

theorem get?_chosen {name : String} (chosen : c.ChosenInto c') :
    Option.Rel Chosen (c.get? name) (c'.get? name) := by
  have filters := chosen.filters
  rw [get?, get?]
  generalize c.filters = fs, c'.filters = gs at filters
  induction filters with
  | nil => exact .none
  | @cons f g fs gs here _ ih =>
    by_cases this : f.name = name
    · rw [List.find?_cons_of_pos (by simpa using this),
        List.find?_cons_of_pos (by simpa [here.name] using this)]
      exact .some here
    · rw [List.find?_cons_of_neg (by simpa using this),
        List.find?_cons_of_neg (by simpa [here.name] using this)]
      exact ih

theorem accepts_chosen (chosen : c.ChosenInto c') (e : String × Json) :
    c'.accepts e = c.accepts e := by
  have found : Option.Rel Chosen (c.get? e.1) (c'.get? e.1) := get?_chosen chosen
  unfold accepts apply
  split
  · rfl
  · generalize c.get? e.1 = f?, c'.get? e.1 = g? at found
    cases found with
    | none => rfl
    | @some f g here =>
      have same : g.setRaw e.2 = f.setRaw e.2 := by cases here <;> rfl
      simp only [here.isCondition, same]
      split
      · rfl
      · cases f.setRaw e.2 <;> rfl

theorem exists_applyAll {entries : List (String × Json)}
    (each : ∀ e ∈ entries, c.accepts e = true) (n : Nat) :
    ∃ m c', c.applyAll n entries = (.ok m, c') := by
  induction entries generalizing c n with
  | nil => exact ⟨n, c, rfl⟩
  | cons e rest ih =>
    obtain ⟨here, later⟩ := List.forall_mem_cons.mp each
    rw [applyAll]
    cases applied : c.apply e.1 e.2 with
    | error =>
      rw [accepts, applied] at here
      cases here
    | ok r =>
      have chosen := apply_chosen applied
      exact ih (fun e mem => (accepts_chosen chosen e).trans (later e mem)) _

theorem taking_of_refused (distinct : (c.filters.map (·.name)).Nodup) {e : String × Json}
    (refused : c.accepts e = false) {f : Filter} (mem : f ∈ c.filters) : f.taking e = f := by
  have effect := apply_effect distinct e
  rw [accepts] at refused
  cases failed : c.apply e.1 e.2 with
  | ok r =>
    rw [failed] at refused
    cases refused
  | error =>
    rw [failed] at effect
    have same : c.filters.map (taking · e) = c.filters.map id := by
      rw [List.map_id]
      exact congrArg Collection.filters effect
    exact List.map_inj_left.mp same f mem

/-- Entries that cannot be applied may be left out, and the others taken in any order. -/
theorem takingAll_of_perm (distinct : (c.filters.map (·.name)).Nodup)
    {entries order : List (String × Json)} (keys : (entries.map Prod.fst).Nodup)
    (perm : order.Perm (entries.filter c.accepts)) : c.takingAll order = c.takingAll entries := by
  have mem_order (e : String × Json) : e ∈ order ↔ e ∈ entries ∧ c.accepts e = true :=
    perm.mem_iff.trans List.mem_filter
  have keys' : (order.map Prod.fst).Nodup :=
    (perm.map Prod.fst).nodup_iff.mpr (keys.sublist (List.filter_sublist.map Prod.fst))
  refine takingAll_congr fun f inside => ?_
  by_cases named : ∃ e ∈ entries, f.name = e.1
  · obtain ⟨e, mem, same⟩ := named
    rw [foldl_taking_of_mem keys mem same]
    cases accepted : c.accepts e with
    | true => rw [foldl_taking_of_mem keys' ((mem_order e).mpr ⟨mem, accepted⟩) same]
    | false =>
      have absent : ∀ e' ∈ order, f.name ≠ e'.1 := by
        intro e' there same'
        obtain ⟨mem', accepted'⟩ := (mem_order e').mp there
        obtain rfl : e' = e := List.inj_on_of_nodup_map keys mem' mem (same'.symm.trans same)
        simp [accepted] at accepted'
      rw [foldl_taking_of_absent absent]
      exact (taking_of_refused distinct accepted inside).symm
  · have absent : ∀ e ∈ entries, f.name ≠ e.1 := fun e mem same => named ⟨e, mem, same⟩
    rw [foldl_taking_of_absent absent, foldl_taking_of_absent fun e mem =>
      absent e ((mem_order e).mp mem).1]

/-- A failure among several values comes from one of them, and those before it stay applied. -/
theorem applyAll_eq_error {entries : List (String × Json)} {n : Nat} {error : Error} :
    c.applyAll n entries = (.error error, c') ↔
      ∃ before e rest m, entries = before ++ e :: rest ∧ c.applyAll n before = (.ok m, c') ∧
      c'.apply e.1 e.2 = .error error := by
  induction entries generalizing c n with
  | nil => simp [applyAll]
  | cons first rest ih =>
    constructor
    · intro failed
      rw [applyAll] at failed
      split at failed
      · next b d once =>
        obtain ⟨before, e, later, m, rfl, applied, wrong⟩ := ih.mp failed
        exact ⟨first :: before, e, later, m, rfl, by rw [applyAll, once]; exact applied, wrong⟩
      · next wrong =>
        cases failed
        exact ⟨[], first, rest, n, rfl, rfl, wrong⟩
    · rintro ⟨before, e, later, m, split_, applied, wrong⟩
      cases before with
      | nil =>
        obtain ⟨rfl, rfl⟩ := List.cons.inj split_
        cases applied
        rw [applyAll, wrong]
      | cons head before =>
        obtain ⟨rfl, rfl⟩ := List.cons.inj split_
        rw [applyAll] at applied ⊢
        split at applied
        · exact ih.mpr ⟨before, e, later, m, rfl, applied, wrong⟩
        · cases applied

def answer (c : Collection) : UserAction → Except Error Bool
  | .apply name value => (c.apply name value).map Prod.fst
  | .applyAll entries => (c.applyAll 0 entries).1.map (0 < ·)
  | .restore _ => .ok true
  | .load store => (c.load store).map Prod.fst

inductive Change
  | add (f : Filter)
  | remove (name : String)
  | setContext (ctx : Context)
  | user (action : UserAction)

/-- The answer to a call, and the collection after it, also when that failed. A filter's name is
checked before the filter is added, so a refusal carries no collection. -/
def change (c : Collection) : Change → Except Error Bool × Collection
  | .add f =>
    match c.add f with
    | .ok c' => (.ok true, c')
    | .error e => (.error e, c)
  | .remove name => (.ok (c.has name), c.remove name)
  | .setContext ctx => (.ok true, c.setContext ctx)
  | .user a => (c.answer a, c.perform a)

def after (c : Collection) (changes : List Change) : Collection :=
  changes.foldl (fun c x => (c.change x).2) c

theorem removeFirst_sublist (name : String) (fs : List Filter) :
    (removeFirst name fs).Sublist fs := by
  induction fs with
  | nil => exact .slnil
  | cons f rest ih =>
    rw [removeFirst]
    split
    · exact List.sublist_cons_self f rest
    · exact ih.cons_cons f

theorem removeFirst_of_absent {name : String} {fs : List Filter}
    (absent : ∀ f ∈ fs, f.name ≠ name) :
    removeFirst name fs = fs := by
  induction fs with
  | nil => rfl
  | cons f rest ih =>
    obtain ⟨other, others⟩ := List.forall_mem_cons.mp absent
    rw [removeFirst, if_neg other, ih others]

theorem perform_of_refused {a : UserAction} (single : ∀ entries, a ≠ .applyAll entries)
    (refused : c.answer a ≠ .ok true) : c.perform a = c := by
  cases a with
  | apply name value =>
    rw [answer] at refused
    rw [perform]
    split
    · next b c' applied =>
      rw [applied] at refused
      rcases apply_cases applied with ⟨-, rfl⟩ | ⟨rfl, -⟩
      · rfl
      · exact absurd rfl refused
    · rfl
  | applyAll entries => exact absurd rfl (single entries)
  | restore s => exact absurd rfl refused
  | load store =>
    rw [answer] at refused
    rw [perform]
    split
    · next b c' events loaded =>
      rw [loaded] at refused
      rcases load_cases loaded with ⟨-, rfl⟩ | ⟨rfl, -⟩
      · rfl
      · exact absurd rfl refused
    · rfl

theorem change_of_refused {x : Change} (single : ∀ entries, x ≠ .user (.applyAll entries))
    (refused : (c.change x).1 ≠ .ok true) : (c.change x).2 = c := by
  cases x with
  | add f =>
    simp only [change] at refused ⊢
    cases added : c.add f with
    | error e => rfl
    | ok c' =>
      rw [added] at refused
      exact absurd rfl refused
  | remove name =>
    have missing : c.get? name = none := by
      simpa [change, has] using refused
    have absent : ∀ f ∈ c.filters, f.name ≠ name := by
      simpa [get?] using missing
    exact congrArg (fun fs => { c with filters := fs }) (removeFirst_of_absent absent)
  | setContext ctx => exact absurd rfl refused
  | user a => exact perform_of_refused (fun entries same => single entries (same ▸ rfl)) refused

end Collection

/-- No value is stored for a condition, and every value is the stored form of one. -/
structure Valid (f : Filter) : Prop where
  condition : f.isCondition = true → f.raw = none
  stored : ∀ v, f.raw = some v → ∃ value, f.handler.validate f.name value = .ok v

theorem valid_of_unset {f : Filter} (unset : f.raw = none) : f.Valid :=
  ⟨fun _ => unset, fun v chosen => by rw [unset] at chosen; cases chosen⟩

namespace Collection

theorem lasting_valid : Lasting (fun _ => True) Valid := by
  intro f g value _ _ _ free stored
  obtain ⟨v, checked, rfl⟩ := setRaw_ok stored
  constructor
  · intro condition
    exact absurd condition (by simpa [isCondition] using free)
  · rintro w ⟨⟩
    exact ⟨value, checked⟩

structure Consistent (c : Collection) : Prop where
  distinct : (c.filters.map (·.name)).Nodup
  valid : ∀ f ∈ c.filters, f.Valid

theorem Consistent.change {c : Collection} (consistent : c.Consistent) {x : Change}
    (unset : ∀ f, x = .add f → f.raw = none) : (c.change x).2.Consistent := by
  obtain ⟨distinct, valid⟩ := consistent
  cases x with
  | add f =>
    simp only [Collection.change]
    cases added : c.add f with
    | error e => exact ⟨distinct, valid⟩
    | ok c' =>
      have names := nodup_add distinct added
      obtain ⟨-, rfl⟩ := add_ok added
      refine ⟨names, List.forall_mem_append.mpr ⟨valid, ?_⟩⟩
      exact List.forall_mem_singleton.mpr (valid_of_unset (unset f rfl))
  | remove name =>
    have fewer := removeFirst_sublist name c.filters
    exact ⟨distinct.sublist (fewer.map _), fun f mem => valid f (fewer.subset mem)⟩
  | setContext ctx => exact ⟨distinct, valid⟩
  | user a =>
    refine ⟨?_, forall_perform lasting_valid a valid fun _ _ => trivial⟩
    exact (c.perform_chosen a).names.symm ▸ distinct

theorem Consistent.after {c : Collection} (consistent : c.Consistent) {changes : List Change}
    (unset : ∀ f, .add f ∈ changes → f.raw = none) : (c.after changes).Consistent := by
  induction changes generalizing c with
  | nil => exact consistent
  | cons x rest ih =>
    refine ih (consistent.change fun f same => unset f ?_) fun f mem =>
      unset f (List.mem_cons_of_mem _ mem)
    exact same ▸ List.mem_cons_self

/-- Whatever is done to a new collection, names stay different, conditions unset and stored values
valid. A call that is refused does nothing; several values are applied up to the first failure; and
restoring applies just the entries that can be applied one by one, in any order. -/
theorem changes_consistent (identifier : String) (ctx : Context) {changes : List Change}
    (unset : ∀ f, .add f ∈ changes → f.raw = none) :
    let c := (new identifier ctx).after changes
    (c.filters.map (·.name)).Nodup ∧
    (∀ f ∈ c.filters, f.isCondition = true → f.raw = none) ∧
    (∀ f ∈ c.filters, ∀ v, f.raw = some v →
      ∃ value, f.handler.validate f.name value = .ok v) ∧
    (∀ x, (∀ entries, x ≠ .user (.applyAll entries)) → (c.change x).1 ≠ .ok true →
      (c.change x).2 = c) ∧
    (∀ entries error c', c.applyAll 0 entries = (.error error, c') ↔
      ∃ before e rest n, entries = before ++ e :: rest ∧
        c.applyAll 0 before = (.ok n, c') ∧ c'.apply e.1 e.2 = .error error) ∧
    ∀ s : State, (s.values.map Prod.fst).Nodup →
      ∀ order, order.Perm (s.values.filter c.accepts) →
      ∃ n, c.applyAll 0 order = (.ok n, (c.restore s).1) := by
  intro c
  have start : (new identifier ctx).Consistent := ⟨List.nodup_nil, fun f mem => nomatch mem⟩
  obtain ⟨distinct, valid⟩ := start.after unset
  refine ⟨distinct, fun f mem => (valid f mem).condition, fun f mem => (valid f mem).stored,
    fun x => change_of_refused, fun entries error c' => applyAll_eq_error, ?_⟩
  intro s keys order perm
  have each : ∀ e ∈ order, c.accepts e = true := fun e mem =>
    (List.mem_filter.mp (perm.mem_iff.mp mem)).2
  obtain ⟨n, c', applied⟩ := exists_applyAll each 0
  refine ⟨n, ?_⟩
  rw [applied, applyAll_effect distinct applied, takingAll_of_perm distinct keys perm, restore,
    restoreEntries_effect distinct]

def eventful : List Change :=
  searches.filters.map .add ++
    [.add (Filter.new "kind" "c.category"), .user (.apply "enrolled" (.ofInt 1)),
    .user (.applyAll [("kind", .ofInt 3), ("owner", .ofInt 1), ("name", .string "art")]),
    .setContext { userId := 8 }, .remove "owner"]

def outdated : State :=
  ⟨[("kind", .array [.string "4"]), ("name", .string " law "), ("owner", .ofInt 1)]⟩

theorem changes_consistent_eventful :
    (∀ f, .add f ∈ eventful → f.raw = none) ∧
      let c := (new "searches" { userId := 7 }).after eventful
      (c.filters.map (·.name)).Nodup ∧
        c.filters.map (fun f => (f.name, f.raw.map Json.text)) =
          [("name", none), ("kind", some "3"), ("enrolled", none)] ∧
        ∃ n, c.applyAll 0 [("name", .string " law "), ("kind", .array [.string "4"])] =
          (.ok n, (c.restore outdated).1) := by
  have unset : ∀ f, .add f ∈ eventful → f.raw = none := by
    intro f mem
    simp only [eventful, searches, List.map_cons, List.map_nil, List.cons_append, List.nil_append,
      List.mem_cons, Change.add.injEq, reduceCtorEq, List.not_mem_nil, or_false] at mem
    rcases mem with rfl | rfl | rfl | rfl <;> rfl
  obtain ⟨distinct, -, -, -, -, restores⟩ := changes_consistent "searches" { userId := 7 } unset
  refine ⟨unset, distinct, by decide +kernel, restores outdated (by decide) _ ?_⟩
  exact .swap _ _ _

end Collection

end Reports.Filter
