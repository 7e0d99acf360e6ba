import Reports.Calendar.Date
import Mathlib.Order.Bounds.Defs
import Mathlib.Tactic.IntervalCases

/-! Days and their dates. Day 0 is 1 January 1970, and the date of the day after is the date that
follows: months have their usual lengths, and a year is leap if 4 divides it, but of the full
centuries only every fourth. -/
namespace Reports.Calendar

theorem isLeap_iff (year : Int) :
    isLeap year = true ↔ year % 4 = 0 ∧ (year % 100 ≠ 0 ∨ year % 400 = 0) := by
  simp [isLeap]

theorem daysBeforeYear_succ (year : Int) :
    daysBeforeYear (year + 1) = daysBeforeYear year + yearLength (isLeap year) := by
  have leap := isLeap_iff year
  simp only [daysBeforeYear, yearLength]
  split
  · next h =>
    have rule := leap.mp h
    omega
  · next h =>
    have rule := mt leap.mpr h
    omega

theorem startOfYear_succ (year : Int) :
    startOfYear (year + 1) = startOfYear year + yearLength (isLeap year) := by
  have succ := daysBeforeYear_succ year
  simp only [startOfYear]
  omega

theorem startOfYear_le {y z : Int} (before : y ≤ z) : startOfYear y ≤ startOfYear z := by
  simp only [startOfYear, daysBeforeYear]
  omega

-- Of four years only the last is leap, and the last of a hundred only where it ends 400.
theorem daysBeforeYear_cycles {a b c e r : Int} (hb : 0 ≤ b ∧ b ≤ 3)
    (hc : 0 ≤ c ∧ c ≤ 24) (he : 0 ≤ e ∧ e ≤ 3) (hr : 0 ≤ r)
    (short : r < 365 ∨ r < 366 ∧ e = 3 ∧ (c < 24 ∨ b = 3)) :
    let year := 400 * a + 100 * b + 4 * c + e + 1
    let n := 146097 * a + 36524 * b + 1461 * c + 365 * e + r
    daysBeforeYear year ≤ n ∧ n < daysBeforeYear (year + 1) := by
  intro year n
  have start : daysBeforeYear year = 146097 * a + 36524 * b + 1461 * c + 365 * e := by
    simp only [daysBeforeYear, year]
    omega
  have next := daysBeforeYear_succ year
  constructor
  · omega
  · rcases short with short | ⟨short, rfl, last⟩
    · have least : 365 ≤ yearLength (isLeap year) := by
        cases isLeap year <;> decide
      omega
    · have leap : isLeap year = true := (isLeap_iff year).mpr (by omega)
      have length : yearLength (isLeap year) = 366 := by simp [leap, yearLength]
      omega

theorem yearOfCount_bounds (n : Int) :
    daysBeforeYear (yearOfCount n) ≤ n ∧ n < daysBeforeYear (yearOfCount n + 1) := by
  let b := min (n % 146097 / 36524) 3
  let c := (n % 146097 - 36524 * b) / 1461
  let e := min ((n % 146097 - 36524 * b - 1461 * c) / 365) 3
  let r := n % 146097 - 36524 * b - 1461 * c - 365 * e
  have whole : n = 146097 * (n / 146097) + 36524 * b + 1461 * c + 365 * e + r := by omega
  have cycles := daysBeforeYear_cycles (a := n / 146097) (b := b) (c := c) (e := e) (r := r)
    (by omega) (by omega) (by omega) (by omega) (by omega)
  rw [← whole] at cycles
  exact cycles

theorem startOfYear_yearOf (day : Int) :
    startOfYear (yearOf day) ≤ day ∧ day < startOfYear (yearOf day + 1) := by
  have bounds := yearOfCount_bounds (day + epochOffset)
  simp only [startOfYear, yearOf]
  omega

theorem yearOf_eq {day year : Int} (start : startOfYear year ≤ day)
    (stop : day < startOfYear (year + 1)) : yearOf day = year := by
  obtain ⟨from_, before⟩ := startOfYear_yearOf day
  -- Of two years one would end before the other starts.
  rcases lt_trichotomy (yearOf day) year with less | equal | more
  · have := startOfYear_le (y := yearOf day + 1) (z := year) (by omega)
    omega
  · exact equal
  · have := startOfYear_le (y := year + 1) (z := yearOf day) (by omega)
    omega

theorem lastStart_eq {starts : List Int} (ascending : starts.Pairwise (· < ·))
    {n t : Int} {k : Nat} (here : starts[k]? = some t) (from_ : t ≤ n)
    (before : ∀ next ∈ starts[k + 1]?, n < next) :
    lastStart n starts = (k + 1, t) := by
  induction starts generalizing k with
  | nil => simp at here
  | cons s rest ih =>
    have above := (List.pairwise_cons.mp ascending).1
    cases k with
    | zero =>
      obtain rfl : s = t := by simpa using here
      have none : lastStart n rest = (0, 0) := by
        cases rest with
        | nil => rfl
        | cons u rest =>
          have later : n < u := before u (by simp)
          simp [lastStart, later]
      simp [lastStart, Int.not_lt.mpr from_, none]
    | succ k =>
      have member : t ∈ rest := List.mem_of_getElem? (by simpa using here)
      have less := above t member
      have last := ih ascending.of_cons (by simpa using here) (by simpa using before)
      rw [lastStart, if_neg (by omega), last]
      rfl

def monthStart (leap : Bool) (month : Nat) : Int := (monthStarts leap).getD (month - 1) 0

theorem monthStarts_ascending (leap : Bool) : (monthStarts leap).Pairwise (· < ·) := by
  cases leap <;> decide

theorem getElem?_monthStarts (leap : Bool) {month : Nat} (below : month ≤ 12)
    (above : 1 ≤ month) : (monthStarts leap)[month - 1]? = some (monthStart leap month) := by
  have length : (monthStarts leap).length = 12 := rfl
  rw [monthStart, List.getD_eq_getElem?_getD, List.getElem?_eq_getElem (by omega)]
  rfl

theorem monthStart_succ (leap : Bool) {month : Nat} (above : 1 ≤ month) (below : month < 12) :
    monthStart leap (month + 1) = monthStart leap month + monthLength leap month := by
  cases leap <;> interval_cases month <;> rfl

theorem monthStart_last (leap : Bool) :
    monthStart leap 12 + monthLength leap 12 = yearLength leap := by
  cases leap <;> rfl

theorem monthStart_january (leap : Bool) : monthStart leap 1 = 0 := by
  cases leap <;> rfl

theorem monthLength_pos (leap : Bool) (month : Nat) : 1 ≤ monthLength leap month := by
  cases leap <;> unfold monthLength <;> split <;> decide

theorem monthStart_bounds (leap : Bool) {month : Nat} (above : 1 ≤ month) (below : month ≤ 12) :
    0 ≤ monthStart leap month ∧
      monthStart leap month + monthLength leap month ≤ yearLength leap := by
  cases leap <;> interval_cases month <;> decide

def InMonth (leap : Bool) (n : Int) (month : Nat) : Prop :=
  monthStart leap month ≤ n ∧ n < monthStart leap month + monthLength leap month

theorem exists_inMonth (leap : Bool) {n : Int} (first : 0 ≤ n) {month : Nat} (above : 1 ≤ month)
    (below : month ≤ 12) (before : n < monthStart leap month + monthLength leap month) :
    ∃ m, 1 ≤ m ∧ m ≤ 12 ∧ InMonth leap n m := by
  induction month, above using Nat.le_induction with
  | base => exact ⟨1, Nat.le_refl 1, below, first, before⟩
  | succ month above ih =>
    by_cases earlier : n < monthStart leap (month + 1)
    · have succ := monthStart_succ leap above below
      apply ih <;> omega
    · exact ⟨month + 1, by omega, below, Int.not_lt.mp earlier, before⟩

theorem lastStart_of_inMonth {leap : Bool} {n : Int} {month : Nat} (above : 1 ≤ month)
    (below : month ≤ 12) (inMonth : InMonth leap n month) :
    lastStart n (monthStarts leap) = (month, monthStart leap month) := by
  have here := getElem?_monthStarts leap below above
  have before : ∀ next ∈ (monthStarts leap)[month - 1 + 1]?, n < next := by
    intro next there
    obtain ⟨short, -⟩ := List.getElem?_eq_some_iff.mp there
    have less : month < 12 := by simp [monthStarts] at short; omega
    have after := getElem?_monthStarts leap (show month + 1 ≤ 12 from less) (by omega)
    rw [Nat.sub_add_cancel above] at there
    obtain rfl := Option.some.inj (after.symm.trans there)
    rw [monthStart_succ leap above less]
    exact inMonth.2
  have last := lastStart_eq (monthStarts_ascending leap) here inMonth.1 before
  rw [Nat.sub_add_cancel above] at last
  exact last

namespace Date

def length (d : Date) : Int := monthLength (isLeap d.year) d.month

structure Valid (d : Date) : Prop where
  january : 1 ≤ d.month
  december : d.month ≤ 12
  first : 1 ≤ d.day
  last : d.day ≤ d.length

def toDay (d : Date) : Int := startOfYear d.year + monthStart (isLeap d.year) d.month + d.day - 1

def next (d : Date) : Date :=
  if d.day < d.length then { d with day := d.day + 1 }
  else if d.month < 12 then ⟨d.year, d.month + 1, 1⟩
  else ⟨d.year + 1, 1, 1⟩

theorem Valid.inYear {d : Date} (valid : d.Valid) :
    startOfYear d.year ≤ d.toDay ∧ d.toDay < startOfYear (d.year + 1) := by
  obtain ⟨january, december, first, last⟩ := valid
  have bounds := monthStart_bounds (isLeap d.year) january december
  have succ := startOfYear_succ d.year
  simp only [length] at last
  simp only [toDay]
  omega

end Date

theorem exists_valid (day : Int) : ∃ d : Date, d.Valid ∧ d.toDay = day := by
  obtain ⟨start, stop⟩ := startOfYear_yearOf day
  have succ := startOfYear_succ (yearOf day)
  have last := monthStart_last (isLeap (yearOf day))
  have first : 0 ≤ dayOfYear day := by simp only [dayOfYear]; omega
  have before : dayOfYear day < monthStart (isLeap (yearOf day)) 12 +
      monthLength (isLeap (yearOf day)) 12 := by simp only [dayOfYear]; omega
  obtain ⟨month, january, december, first, length⟩ :=
    exists_inMonth (isLeap (yearOf day)) first (by decide) (by decide) before
  refine ⟨⟨yearOf day, month, dayOfYear day - monthStart (isLeap (yearOf day)) month + 1⟩, ?_,
    ?_⟩
  · exact ⟨january, december, by simp only; omega, by simp only [Date.length]; omega⟩
  · simp only [Date.toDay, dayOfYear]
    omega

theorem dateOf_toDay {d : Date} (valid : d.Valid) : dateOf d.toDay = d := by
  have year : yearOf d.toDay = d.year := yearOf_eq valid.inYear.1 valid.inYear.2
  have place : dayOfYear d.toDay = monthStart (isLeap d.year) d.month + d.day - 1 := by
    rw [dayOfYear, year, Date.toDay]
    omega
  obtain ⟨january, december, first, last⟩ := valid
  have inMonth : InMonth (isLeap d.year) (dayOfYear d.toDay) d.month := by
    simp only [Date.length] at last
    constructor <;> omega
  have number : dayOfYear d.toDay - monthStart (isLeap d.year) d.month + 1 = d.day := by omega
  simp only [dateOf, year, lastStart_of_inMonth january december inMonth, number]

theorem dateOf_eq_iff {day : Int} {d : Date} : dateOf day = d ↔ d.Valid ∧ d.toDay = day := by
  constructor
  · rintro rfl
    obtain ⟨d, valid, rfl⟩ := exists_valid day
    rw [dateOf_toDay valid]
    exact ⟨valid, rfl⟩
  · rintro ⟨valid, rfl⟩
    exact dateOf_toDay valid

theorem valid_dateOf (day : Int) : (dateOf day).Valid := (dateOf_eq_iff.mp rfl).1

theorem toDay_dateOf (day : Int) : (dateOf day).toDay = day := (dateOf_eq_iff.mp rfl).2

theorem dateOf_zero : dateOf 0 = ⟨1970, 1, 1⟩ := by decide

theorem Date.Valid.next {d : Date} (valid : d.Valid) :
    d.next.Valid ∧ d.next.toDay = d.toDay + 1 := by
  obtain ⟨january, december, first, last⟩ := valid
  unfold Date.next
  split
  · next short =>
    constructor
    · exact ⟨january, december, by simp only; omega, short⟩
    · simp only [Date.toDay]
      omega
  · next full =>
    simp only [Date.length] at last full
    split
    · next less =>
      constructor
      · have long := monthLength_pos (isLeap d.year) (d.month + 1)
        exact ⟨by simp, less, Int.le_refl 1, long⟩
      · have succ := monthStart_succ (isLeap d.year) january less
        simp only [Date.toDay]
        omega
    · next full' =>
      constructor
      · have long := monthLength_pos (isLeap (d.year + 1)) 1
        exact ⟨Nat.le_refl 1, by simp, Int.le_refl 1, long⟩
      · have december' : d.month = 12 := by omega
        have whole := monthStart_last (isLeap d.year)
        have succ := startOfYear_succ d.year
        have january' := monthStart_january (isLeap (d.year + 1))
        simp only [Date.toDay]
        rw [december'] at full last ⊢
        omega

theorem dateOf_succ (day : Int) : dateOf (day + 1) = (dateOf day).next := by
  obtain ⟨valid, after⟩ := (valid_dateOf day).next
  exact dateOf_eq_iff.mpr ⟨valid, by rw [after, toDay_dateOf]⟩

/-- Dates go on from 1 January 1970 in both directions. -/
structure Gregorian (date : Int → Date) : Prop where
  epoch : date 0 = ⟨1970, 1, 1⟩
  valid (day : Int) : (date day).Valid
  succ (day : Int) : date (day + 1) = (date day).next

theorem gregorian_dateOf : Gregorian dateOf := ⟨dateOf_zero, valid_dateOf, dateOf_succ⟩

theorem Gregorian.toDay {date : Int → Date} (gregorian : Gregorian date) (day : Int) :
    (date day).toDay = day := by
  have step (day : Int) : (date (day + 1)).toDay = (date day).toDay + 1 := by
    rw [gregorian.succ]
    exact (gregorian.valid day).next.2
  induction day using Int.induction_on with
  | zero =>
    rw [gregorian.epoch]
    rfl
  | succ i ih =>
    have next := step i
    omega
  | pred i ih =>
    have next := step (-i - 1)
    rw [Int.sub_add_cancel] at next
    omega

/-- There is one such calendar. -/
theorem gregorian_iff {date : Int → Date} : Gregorian date ↔ date = dateOf := by
  constructor
  · intro gregorian
    funext day
    exact (dateOf_eq_iff.mpr ⟨gregorian.valid day, gregorian.toDay day⟩).symm
  · rintro rfl
    exact gregorian_dateOf

theorem dateOf_sameMonth {day number : Int} (first : 1 ≤ number)
    (last : number ≤ (dateOf day).length) :
    dateOf (day - (dateOf day).day + number) = { dateOf day with day := number } := by
  obtain ⟨january, december, -, -⟩ := valid_dateOf day
  have here := toDay_dateOf day
  refine dateOf_eq_iff.mpr ⟨⟨january, december, first, last⟩, ?_⟩
  simp only [Date.toDay] at here ⊢
  omega

theorem withDay?_one (day : Int) : withDay? day 1 = some (day - (dateOf day).day + 1) := by
  obtain ⟨-, -, first, last⟩ := valid_dateOf day
  exact if_pos ⟨Int.le_refl 1, first.trans last⟩

theorem isGreatest_firstOfMonth (day : Int) :
    IsGreatest {d | d ≤ day ∧ (dateOf d).day = 1} (day - (dateOf day).day + 1) := by
  obtain ⟨-, -, first, last⟩ := valid_dateOf day
  constructor
  · exact ⟨by omega, by rw [dateOf_sameMonth (Int.le_refl 1) (first.trans last)]⟩
  · rintro d ⟨notAfter, one⟩
    by_contra later
    -- A later day of the same month has a later number.
    have same : dateOf (day - (dateOf day).day + (d - day + (dateOf day).day)) = _ :=
      dateOf_sameMonth (by omega) (by omega)
    rw [show day - (dateOf day).day + (d - day + (dateOf day).day) = d by omega] at same
    rw [same] at one
    simp only at one
    omega

theorem withOrdinal?_one (day : Int) : withOrdinal? day 1 = some (startOfYear (yearOf day)) := by
  have long : 1 ≤ yearLength (isLeap (yearOf day)) := by
    cases isLeap (yearOf day) <;> decide
  rw [withOrdinal?, if_pos ⟨Int.le_refl 1, long⟩, Int.add_sub_cancel]

theorem isGreatest_startOfYear (day : Int) :
    IsGreatest {d | d ≤ day ∧ (dateOf d).month = 1 ∧ (dateOf d).day = 1}
      (startOfYear (yearOf day)) := by
  have january (year : Int) : Date.toDay ⟨year, 1, 1⟩ = startOfYear year := by
    have start := monthStart_january (isLeap year)
    simp only [Date.toDay]
    omega
  constructor
  · have long := monthLength_pos (isLeap (yearOf day)) 1
    have date : dateOf (startOfYear (yearOf day)) = ⟨yearOf day, 1, 1⟩ :=
      dateOf_eq_iff.mpr ⟨⟨Nat.le_refl 1, by simp, Int.le_refl 1, long⟩, january _⟩
    exact ⟨(startOfYear_yearOf day).1, by rw [date], by rw [date]⟩
  · rintro d ⟨notAfter, month, one⟩
    have here := toDay_dateOf d
    have form : dateOf d = ⟨(dateOf d).year, 1, 1⟩ := by
      rw [← month, ← one]
    rw [form, january] at here
    have stop := (startOfYear_yearOf day).2
    rcases Int.lt_or_le (yearOf day) (dateOf d).year with later | year
    · have after := startOfYear_le (y := yearOf day + 1) later
      omega
    · have before := startOfYear_le year
      omega

end Reports.Calendar
