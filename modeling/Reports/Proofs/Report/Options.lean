import Reports.Proofs.Report.Coherence
import Mathlib.Data.List.Nodup

/-! Options of a request. Of each option the last value counts, in whatever order the options are
given; but a filter that some preferences have disabled is gone, also when later ones enable it. -/
namespace Reports.Request

/-- An option and the value that it is given. -/
inductive Adjustment
  | preferences (value : Preferences)
  | layout (value : Layout)
  | page (value : UInt32)
  | sort (field : String) (direction : Sql.Direction)
  | settings (value : Settings)

inductive Adjustment.Kind
  | preferences
  | layout
  | page
  | sort
  | settings
  deriving DecidableEq

def Adjustment.kind : Adjustment → Kind
  | preferences _ => .preferences
  | layout _ => .layout
  | page _ => .page
  | sort _ _ => .sort
  | settings _ => .settings

def adjust (r : Request) : Adjustment → Request
  | .preferences p => r.withPreferences p
  | .layout l => r.withLayout l
  | .page n => r.withPage n
  | .sort field direction => r.withSort field direction
  | .settings s => r.withSettings s

def adjusted (r : Request) (as : List Adjustment) : Request := as.foldl adjust r

/-- The last value of each option that was given. -/
structure Latest where
  preferences : Option Preferences := none
  layout : Option Layout := none
  page : Option UInt32 := none
  sort : Option (String × Sql.Direction) := none
  settings : Option Settings := none

def Latest.note (l : Latest) : Adjustment → Latest
  | .preferences p => { l with preferences := some p }
  | .layout x => { l with layout := some x }
  | .page n => { l with page := some n }
  | .sort field direction => { l with sort := some (field, direction) }
  | .settings s => { l with settings := some s }

def latest (as : List Adjustment) : Latest := as.foldl Latest.note {}

def givenPreferences (as : List Adjustment) : List Preferences :=
  as.filterMap fun
    | .preferences p => some p
    | _ => none

/-- Each option at most once, and those of the first list with their last values. -/
structure Summarizes (as bs : List Adjustment) : Prop where
  once : (bs.map Adjustment.kind).Nodup
  latest : latest bs = latest as

def enabledByAll (ps : List Preferences) (f : Filter) : Bool := ps.all fun p => p.isFilterEnabled f

def settled (r : Request) (l : Latest) (filters : List Filter) : Request :=
  { r with
    preferences := l.preferences.or r.preferences
    layoutOverride := l.layout.or r.layoutOverride
    page := (l.page.map fun n => max n 1).getD r.page
    sort := l.sort.or r.sort
    settings := l.settings.getD r.settings
    fields := (l.settings.map fun s => r.fields.map (·.setTablePrefix s.tablePrefix)).getD r.fields
    filters := { r.filters with
      filters
      context := (l.settings.map fun s =>
        { r.filters.context with tablePrefix := s.tablePrefix }).getD r.filters.context }
    query := none }

theorem settled_none {r : Request} (fresh : r.query = none) :
    r.settled {} r.filters.filters = r := by
  cases r
  cases fresh
  rfl

theorem setTablePrefix_setTablePrefix (f : Field) (first second : String) :
    (f.setTablePrefix first).setTablePrefix second = f.setTablePrefix second := by
  have each (a : Field.Attribute) :
      (a.withTablePrefix first).withTablePrefix second = a.withTablePrefix second := by
    cases a <;> rfl
  simp only [Field.setTablePrefix, List.map_map, Function.comp_def, each]

def remaining (fs : List Filter) : Adjustment → List Filter
  | .preferences p => fs.filter p.isFilterEnabled
  | _ => fs

theorem adjust_settled (r : Request) (l : Latest) (fs : List Filter) (a : Adjustment) :
    (r.settled l fs).adjust a = r.settled (l.note a) (remaining fs a) := by
  cases a with
  | preferences p => rfl
  | layout x => rfl
  | page n => rfl
  | sort field direction => rfl
  | settings s =>
    cases before : l.settings with
    | none => simp [adjust, withSettings, settled, Latest.note, remaining, before,
        Filter.Collection.setContext]
    | some s' => simp [adjust, withSettings, settled, Latest.note, remaining, before,
        Filter.Collection.setContext, setTablePrefix_setTablePrefix]

theorem filter_remaining (fs : List Filter) (a : Adjustment) (as : List Adjustment) :
    (remaining fs a).filter (enabledByAll (givenPreferences as)) =
      fs.filter (enabledByAll (givenPreferences (a :: as))) := by
  cases a with
  | preferences p =>
    rw [remaining, List.filter_filter]
    exact List.filter_congr fun f _ => Bool.and_comm _ _
  | _ => rfl

theorem foldl_adjust_settled (r : Request) (l : Latest) (fs : List Filter) (as : List Adjustment) :
    as.foldl adjust (r.settled l fs) =
      r.settled (as.foldl Latest.note l) (fs.filter (enabledByAll (givenPreferences as))) := by
  induction as generalizing l fs with
  | nil =>
    have all : fs.filter (enabledByAll (givenPreferences [])) = fs := List.filter_true fs
    rw [List.foldl_nil, List.foldl_nil, all]
  | cons a rest ih =>
    rw [List.foldl_cons, List.foldl_cons, adjust_settled, ih, filter_remaining]

theorem adjusted_eq {r : Request} (fresh : r.query = none) (as : List Adjustment) :
    r.adjusted as =
      r.settled (latest as) (r.filters.filters.filter (enabledByAll (givenPreferences as))) := by
  have whole := foldl_adjust_settled r {} r.filters.filters as
  rwa [settled_none fresh] at whole

theorem length_givenPreferences (as : List Adjustment) :
    (givenPreferences as).length = (as.map Adjustment.kind).count .preferences := by
  induction as with
  | nil => rfl
  | cons a rest ih => cases a <;> simp [givenPreferences, Adjustment.kind] at ih ⊢ <;> exact ih

theorem preferences_foldl_note (as : List Adjustment) (l : Latest) :
    (as.foldl Latest.note l).preferences = (givenPreferences as).getLast?.or l.preferences := by
  induction as generalizing l with
  | nil => rfl
  | cons a rest ih =>
    rw [List.foldl_cons, ih]
    cases a with
    | preferences p =>
      change _ = (p :: givenPreferences rest).getLast?.or l.preferences
      rw [List.getLast?_cons]
      cases (givenPreferences rest).getLast? <;> rfl
    | _ => rfl

theorem givenPreferences_of_once {bs : List Adjustment} (once : (bs.map Adjustment.kind).Nodup) :
    givenPreferences bs = (latest bs).preferences.toList := by
  have one : (givenPreferences bs).length ≤ 1 := by
    rw [length_givenPreferences]
    exact List.nodup_iff_count_le_one.mp once _
  rw [latest, preferences_foldl_note]
  cases given : givenPreferences bs with
  | nil => rfl
  | cons p rest =>
    rw [given, List.length_cons] at one
    obtain rfl : rest = [] := List.length_eq_zero_iff.mp (by omega)
    rfl

theorem mem_givenPreferences_of_latest {as : List Adjustment} {p : Preferences}
    (last : p ∈ (latest as).preferences) : p ∈ givenPreferences as := by
  rw [latest, preferences_foldl_note, Option.or_none] at last
  exact List.mem_of_getLast? last

theorem filters_settled (r : Request) (l : Latest) (fs : List Filter) :
    (r.settled l fs).filters.filters = fs := rfl

theorem settled_injective (r : Request) (l : Latest) : Function.Injective (r.settled l) :=
  fun _ _ same => congrArg (·.filters.filters) same

theorem enabledByAll_iff {ps : List Preferences} {f : Filter} :
    enabledByAll ps f = true ↔ ∀ p ∈ ps, p.isFilterEnabled f = true := List.all_eq_true

/-- Two filters of a list keep the same members when one keeps no other than the other. -/
theorem filter_enabled_eq_iff {fs : List Filter} {ps qs : List Preferences}
    (fewer : ∀ q ∈ qs, q ∈ ps) :
    fs.filter (enabledByAll ps) = fs.filter (enabledByAll qs) ↔
      ∀ f ∈ fs, (∀ q ∈ qs, q.isFilterEnabled f = true) →
      ∀ p ∈ ps, p.isFilterEnabled f = true := by
  constructor
  · intro same f mem enabled
    have kept : f ∈ fs.filter (enabledByAll qs) :=
      List.mem_filter.mpr ⟨mem, enabledByAll_iff.mpr enabled⟩
    rw [← same] at kept
    exact enabledByAll_iff.mp (List.mem_filter.mp kept).2
  · intro enabled
    refine List.filter_congr fun f mem => ?_
    rw [Bool.eq_iff_iff, enabledByAll_iff, enabledByAll_iff]
    exact ⟨fun all q there => all q (fewer q there), enabled f mem⟩

/-- A new request given options is one that is given each of them once, with its last value and in
any order, except for its filters: those that every one of the preferences enables are left. The two
are the same exactly when the earlier preferences have disabled none that the last ones enable. -/
theorem adjusted_eq_latest (report : Report) (storage : Storage)
    (context : Filter.Context) (clock : Int) {r : Request}
    (made : Request.new report storage context clock = .ok r) {as bs : List Adjustment}
    (summary : Summarizes as bs) :
    let whole := r.adjusted as
    let brief := r.adjusted bs
    whole.filters.filters = r.filters.filters.filter (enabledByAll (givenPreferences as)) ∧
      whole = brief.withFilters { brief.filters with filters := whole.filters.filters } ∧
      (whole.displayFields = brief.displayFields ∧ whole.perPage = brief.perPage ∧
        whole.layout = brief.layout) ∧
      (whole = brief ↔ ∀ f ∈ r.filters.filters,
        (∀ p ∈ (latest as).preferences, p.isFilterEnabled f = true) →
          ∀ p ∈ givenPreferences as, p.isFilterEnabled f = true) := by
  intro whole brief
  have fresh := query_new made
  have long : whole = r.settled (latest as)
      (r.filters.filters.filter (enabledByAll (givenPreferences as))) := adjusted_eq fresh as
  have short : brief = r.settled (latest as)
      (r.filters.filters.filter (enabledByAll (latest as).preferences.toList)) := by
    have here := adjusted_eq fresh bs
    rwa [givenPreferences_of_once summary.once, summary.latest] at here
  rw [long, short, filters_settled]
  refine ⟨rfl, rfl, ⟨rfl, rfl, rfl⟩, ?_⟩
  have fewer : ∀ p ∈ (latest as).preferences.toList, p ∈ givenPreferences as := fun p there =>
    mem_givenPreferences_of_latest (Option.mem_toList.mp there)
  rw [(settled_injective r (latest as)).eq_iff, filter_enabled_eq_iff fewer]
  simp only [Option.mem_toList, Option.mem_def]

def hiddenOnce : List Adjustment :=
  [.preferences { filters := .ofList [("category", { enabled := false })] }, .preferences {}]

/-- The last preferences enable the filter by category, but the first ones have removed it. -/
theorem adjusted_ne_latest_hiddenOnce :
    ∃ r, Request.new items oneRow { userId := 1 } 0 = .ok r ∧
      Summarizes hiddenOnce [.preferences {}] ∧
      (r.adjusted hiddenOnce).filters.filters.map (·.name) = [] ∧
      (r.adjusted [.preferences {}]).filters.filters.map (·.name) = ["category"] := by
  have names : (Request.new items oneRow { userId := 1 } 0).toOption.map (fun r =>
      ((r.adjusted hiddenOnce).filters.filters.map (·.name),
        (r.adjusted [.preferences {}]).filters.filters.map (·.name))) =
          some ([], ["category"]) := by
    decide +kernel
  rcases made : Request.new items oneRow { userId := 1 } 0 with e | r
  · rw [made] at names
    cases names
  · rw [made] at names
    have both := Option.some.inj names
    rw [Prod.mk.injEq] at both
    exact ⟨r, rfl, ⟨by decide, rfl⟩, both⟩

def changedMind : List Adjustment :=
  [.settings { tablePrefix := "a_" }, .page 0, .sort "name" .desc,
    .preferences { perPage := some 5 }, .layout .stat, .sort "id" .asc,
    .preferences { perPage := some 3 }, .page 2, .layout .grid,
    .settings { tablePrefix := "b_", maxPerPage := 50 }]

def firmMind : List Adjustment :=
  [.layout .grid, .preferences { perPage := some 3 },
    .settings { tablePrefix := "b_", maxPerPage := 50 }, .page 2, .sort "id" .asc]

theorem adjusted_eq_latest_changedMind :
    ∃ r, Request.new items oneRow { userId := 1 } 0 = .ok r ∧
      Summarizes changedMind firmMind ∧ r.filters.filters.map (·.name) = ["category"] ∧
      r.adjusted changedMind = r.adjusted firmMind := by
  have summary : Summarizes changedMind firmMind := ⟨by decide, rfl⟩
  have facts : (Request.new items oneRow { userId := 1 } 0).toOption.map (fun r =>
      (r.filters.filters.map (·.name),
        r.filters.filters.all (enabledByAll (givenPreferences changedMind)))) =
      some (["category"], true) := by
    decide +kernel
  rcases made : Request.new items oneRow { userId := 1 } 0 with e | r
  · rw [made] at facts
    cases facts
  · rw [made] at facts
    have both := Option.some.inj facts
    rw [Prod.mk.injEq] at both
    obtain ⟨names, enabled⟩ := both
    refine ⟨r, rfl, summary, names, ?_⟩
    refine (adjusted_eq_latest items oneRow { userId := 1 } 0 made summary).2.2.2.mpr ?_
    exact fun f mem _ => enabledByAll_iff.mp (List.all_eq_true.mp enabled f mem)

end Reports.Request
