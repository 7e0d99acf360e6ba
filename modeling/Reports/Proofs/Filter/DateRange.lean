import Reports.Proofs.Calendar.Date
import Reports.Proofs.Filter.Acceptance
import Mathlib.Logic.Basic

/-! What the ranges of dates compare with. Their bounds are whole seconds: the last midnight, the
last that begins a month or a year, and moments some days ago. -/
namespace Reports

open Sql (Dialect Predicate Template)

namespace Calendar.Moment

instance : LE Moment := ⟨fun m m' => m.nanoseconds ≤ m'.nanoseconds⟩

theorem ofSeconds_le_iff {t : Int} {m : Moment} : ofSeconds t ≤ m ↔ t ≤ m.second := by
  change t * nanosecondsPerSecond ≤ m.nanoseconds ↔ t ≤ m.nanoseconds / nanosecondsPerSecond
  simp only [nanosecondsPerSecond]
  omega

end Calendar.Moment

namespace Filter

open Calendar (Moment dateOf dayOf secondsPerDay)

/-- A timestamp passes a comparison of a selector with a bound. -/
inductive Admits (selector : String) (t : Int) : Template → Prop
  | least {bound : Int} : bound ≤ t →
    Admits selector t ⟨[.text (selector ++ " >= "), .hole (.ofInt bound)], ∅⟩
  | less {bound : Int} : t < bound →
    Admits selector t ⟨[.text (selector ++ " < "), .hole (.ofInt bound)], ∅⟩

section Admits

variable {selector : String} {t bound : Int} {op : Sql.Operator}

theorem admits_iff {word : String} :
    Admits selector t ⟨[.text (selector ++ word), .hole (.ofInt bound)], ∅⟩ ↔
      word = " >= " ∧ bound ≤ t ∨ word = " < " ∧ t < bound := by
  constructor
  · intro admits
    generalize same :
      (Template.mk [.text (selector ++ word), .hole (.ofInt bound)] ∅) = x at admits
    cases admits with
    | least after =>
      obtain ⟨rfl, rfl⟩ : word = " >= " ∧ bound = _ := by simpa [Json.ofInt] using same
      exact .inl ⟨rfl, after⟩
    | less before =>
      obtain ⟨rfl, rfl⟩ : word = " < " ∧ bound = _ := by simpa [Json.ofInt] using same
      exact .inr ⟨rfl, before⟩
  · rintro (⟨rfl, after⟩ | ⟨rfl, before⟩)
    · exact .least after
    · exact .less before

theorem template_ordered (ordered : op = .greaterOrEqual ∨ op = .lessThan) (d : Dialect) :
    (Predicate.new selector [.ofInt bound] op).template d =
      .ok ⟨[.text (selector ++ (" " ++ op.symbol?.getD "=" ++ " ")), .hole (.ofInt bound)],
        ∅⟩ := by
  rw [← String.append_assoc, ← String.append_assoc]
  rcases ordered with rfl | rfl <;> rfl

end Admits

namespace DateRange

def operator : DateRange → Sql.Operator
  | beforeToday => .lessThan
  | _ => .greaterOrEqual

theorem operator_eq {now : Moment} {r : DateRange} {b : Sql.Operator × Int}
    (bound : r.bound? now = some b) : b.1 = r.operator := by
  cases r with
  | last7Days =>
    obtain ⟨m, -, rfl⟩ := Option.map_eq_some_iff.mp bound
    rfl
  | last30Days =>
    obtain ⟨m, -, rfl⟩ := Option.map_eq_some_iff.mp bound
    rfl
  | _ =>
    cases bound
    rfl

/-- The bounds of the ranges on a clock, in seconds. -/
structure Bounds (now : Moment) (bound : DateRange → Int) : Prop where
  today : IsGreatest {t : Int | 86400 ∣ t ∧ .ofSeconds t ≤ now} (bound .today)
  beforeToday : bound .beforeToday = bound .today
  thisMonth : IsGreatest {t : Int | 86400 ∣ t ∧ .ofSeconds t ≤ now ∧
    (dateOf (dayOf t)).day = 1}
    (bound .thisMonth)
  thisYear : IsGreatest {t : Int | 86400 ∣ t ∧ .ofSeconds t ≤ now ∧
    (dateOf (dayOf t)).month = 1 ∧ (dateOf (dayOf t)).day = 1} (bound .thisYear)
  last7Days : bound .last7Days = now.second - 604800
  last30Days : bound .last30Days = now.second - 2592000

theorem isGreatest_midnight {now : Moment} {P : Int → Prop} {day : Int}
    (last : IsGreatest {d | d ≤ now.day ∧ P d} day) :
    IsGreatest {t : Int | 86400 ∣ t ∧ .ofSeconds t ≤ now ∧ P (dayOf t)}
      (secondsOf day) := by
  obtain ⟨⟨notAfter, here⟩, greatest⟩ := last
  have midnight : dayOf (secondsOf day) = day := by
    simp only [dayOf, secondsOf, secondsPerDay]
    omega
  constructor
  · refine ⟨⟨day, by simp only [secondsOf, secondsPerDay]; omega⟩, ?_, by rwa [midnight]⟩
    rw [Moment.ofSeconds_le_iff]
    simp only [Moment.day, dayOf, secondsPerDay, secondsOf] at notAfter ⊢
    omega
  · rintro t ⟨⟨d, rfl⟩, before, there⟩
    rw [Moment.ofSeconds_le_iff] at before
    have inside : dayOf (86400 * d) ≤ now.day := by
      simp only [Moment.day, dayOf, secondsPerDay]
      omega
    have most := greatest ⟨inside, there⟩
    simp only [dayOf, secondsPerDay, secondsOf] at most ⊢
    omega

theorem exists_bounds {now : Moment} (given : Calendar.firstMoment ≤ now.second - 2592000) :
    ∃ bound, Bounds now bound ∧ ∀ r : DateRange,
    r.bound? now = some (r.operator, bound r) := by
  have ago {days : Int} (recent : days ≤ 30) :
      ∃ m, now.daysAgo? days = some m ∧ m.second = now.second - days * secondsPerDay :=
    Moment.daysAgo?_eq_some (by simp only [secondsPerDay]; omega)
  obtain ⟨week, ago7, second7⟩ := ago (show (7 : Int) ≤ 30 by decide)
  obtain ⟨month, ago30, second30⟩ := ago (Int.le_refl 30)
  -- A month and a year always have a first day, so neither falls back on midnight.
  have first := Calendar.withDay?_one now.day
  have january := Calendar.withOrdinal?_one now.day
  have each (r : DateRange) : ∃ b, r.bound? now = some (r.operator, b) := by
    cases r <;> simp [bound?, operator, ago7, ago30]
  choose bound resolved using each
  refine ⟨bound, ?_, resolved⟩
  have today := resolved .today
  have last7Days := resolved .last7Days
  have last30Days := resolved .last30Days
  have thisMonth := resolved .thisMonth
  have thisYear := resolved .thisYear
  have beforeToday := resolved .beforeToday
  simp only [bound?, operator, ago7, ago30, first, january, Option.map_some, Option.getD_some,
    Option.some.injEq, Prod.mk.injEq, true_and]
    at today last7Days last30Days thisMonth thisYear beforeToday
  constructor
  · have last : IsGreatest {d | d ≤ now.day ∧ True} now.day :=
      ⟨⟨Int.le_refl _, trivial⟩, fun d mem => mem.1⟩
    simpa [today] using isGreatest_midnight last
  · rw [← beforeToday, today]
  · rw [← thisMonth]
    exact isGreatest_midnight (Calendar.isGreatest_firstOfMonth now.day)
  · rw [← thisYear]
    exact isGreatest_midnight (Calendar.isGreatest_startOfYear now.day)
  · rw [← last7Days, second7]
    rfl
  · rw [← last30Days, second30]
    rfl

namespace Bounds

variable {now : Moment} {bound : DateRange → Int} (bounds : Bounds now bound)

include bounds

theorem thisYear_le : bound .thisYear ≤ bound .thisMonth :=
  bounds.thisMonth.2 ⟨bounds.thisYear.1.1, bounds.thisYear.1.2.1, bounds.thisYear.1.2.2.2⟩

theorem thisMonth_le : bound .thisMonth ≤ bound .today :=
  bounds.today.2 ⟨bounds.thisMonth.1.1, bounds.thisMonth.1.2.1⟩

end Bounds

end DateRange

def Offered (f : Filter) : Prop :=
  ∀ functions v, f.handler = .date functions → f.raw = some v →
    ∃ name ∈ functions, v = .string name

theorem validate_date {functions : List String} {field : String} {value v : Json} :
    (Handler.date functions).validate field value = .ok v ↔
      v = value ∧ ∃ name ∈ functions, value = .string name := by
  constructor
  · intro checked
    cases value with
    | string name =>
      rw [Handler.validate] at checked
      split at checked
      · next offered =>
        cases checked
        exact ⟨rfl, name, by simpa using offered, rfl⟩
      · cases checked
    | _ => cases checked
  · rintro ⟨rfl, name, offered, rfl⟩
    rw [Handler.validate, if_pos (by simpa using offered)]

theorem validate_date_unknown {functions : List String} {name : String}
    (unknown : name ∉ functions) (field : String) :
      (Handler.date functions).validate field (.string name) =
        .error (.invalidValue field ("unknown date function " ++ (Json.string name).text)) := by
  rw [Handler.validate, if_neg (by simpa using unknown)]

theorem Offered.setRaw {f g : Filter} {value : Json} (stored : f.setRaw value = .ok g) :
    g.Offered := by
  obtain ⟨v, checked, rfl⟩ := Collection.setRaw_ok stored
  rintro functions w handler ⟨⟩
  rw [show f.handler = .date functions from handler] at checked
  obtain ⟨rfl, offered⟩ := validate_date.mp checked
  exact offered

theorem Reloaded.offered {f g : Filter} (reloaded : f.Reloaded g) (offered : f.Offered) :
    g.Offered := by
  cases reloaded with
  | same => exact offered
  | options => exact fun functions v handler => nomatch handler

theorem offered_play {c : Collection} (offered : ∀ f ∈ c.filters, f.Offered)
    (ts : List Collection.Turn) :
    ∀ f ∈ (c.play ts).filters, f.Offered := by
  refine Collection.forall_play (V := fun _ => True) ?_ ?_ (fun _ _ _ _ => trivial) offered
  · exact fun f g value _ _ _ _ stored => Offered.setRaw stored
  · intro st s _ ctx f g s₁ s₂ offered loaded
    exact ((Collection.initFilter_reloaded st ctx f s₁).2 g (by rw [loaded])).offered offered

/-- A timestamp passes what the filter has to say about it. -/
def Passed (f : Filter) (ctx : Context) (t : Int) : Prop :=
  ∃ p x, f.predicate? ctx = .ok (some p) ∧ (∀ d, p.template d = .ok x) ∧
    Admits f.selector t x

section

variable {f : Filter} {functions : List String} {r : DateRange} {ctx : Context} {bound : Int}
  (handler : f.handler = .date functions) (chosen : f.raw = some (.string r.name))
  (resolved : r.bound? ctx.now = some (r.operator, bound))

include handler chosen resolved

theorem predicate?_date :
    f.predicate? ctx = .ok (some (.new f.selector [.ofInt bound] r.operator)) := by
  have given := predicate?_unlisted (f := f) (by rw [handler]; rfl) ctx
  have named : DateRange.ofName? r.name = some r := by cases r <;> decide
  rw [given, handler, chosen]
  simp only [Handler.predicate?, named, resolved]

theorem passed_iff {t : Int} : f.Passed ctx t ↔
    if r = .beforeToday then t < bound else bound ≤ t := by
  have contributed := predicate?_date handler chosen resolved
  have compared {x : Template}
      (written : ∀ d, (Predicate.new f.selector [.ofInt bound] r.operator).template d = .ok x) :
      f.Passed ctx t ↔ Admits f.selector t x := by
    constructor
    · rintro ⟨p, y, given, template, admits⟩
      cases given.symm.trans contributed
      cases (template .sqlite).symm.trans (written .sqlite)
      exact admits
    · exact fun admits => ⟨_, x, contributed, written, admits⟩
  have ordered : r.operator = .greaterOrEqual ∨ r.operator = .lessThan := by cases r <;> decide
  rw [compared (template_ordered ordered), admits_iff]
  by_cases before : r = .beforeToday
  · subst before
    rw [if_pos rfl]
    exact ⟨fun passed => passed.elim (fun wrong => absurd wrong.1 (by decide)) And.right,
      fun earlier => .inr ⟨rfl, earlier⟩⟩
  · have operator : r.operator = .greaterOrEqual := by
      cases r with
      | beforeToday => exact absurd rfl before
      | _ => rfl
    rw [if_neg before, operator]
    exact ⟨fun passed => passed.elim And.right fun wrong => absurd wrong.1 (by decide),
      fun later => .inl ⟨rfl, later⟩⟩

end

/-- The end of 29 February 1968, half a second before midnight. -/
def leapNight : Context := { now := ⟨-57974400500000000⟩ }

def created (r : DateRange) : Filter :=
  { (Filter.new "created" "c.timecreated").withHandler .everyDate with
    raw := some (.string r.name) }

end Filter

end Reports
