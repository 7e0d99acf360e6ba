/-! Dates of the Gregorian calendar, also before its introduction, and moments of universal time
counted in seconds from the start of 1970. -/
namespace Reports.Calendar

def secondsPerDay : Int := 86400

def dayOf (seconds : Int) : Int := seconds / secondsPerDay

/-- Days from 1 January of year 1 to 1 January 1970. -/
def epochOffset : Int := 719162

def isLeap (year : Int) : Bool := year % 4 == 0 && (year % 100 != 0 || year % 400 == 0)

def daysBeforeYear (year : Int) : Int :=
  let y := year - 1
  365 * y + y / 4 - y / 100 + y / 400

def startOfYear (year : Int) : Int := daysBeforeYear year - epochOffset

/-- The year of a day counted from 1 January of year 1: whole cycles of 400, 100, 4 and 1 years. -/
def yearOfCount (n : Int) : Int :=
  let n400 := n / 146097
  let r400 := n % 146097
  let n100 := min (r400 / 36524) 3
  let r100 := r400 - 36524 * n100
  let n4 := r100 / 1461
  let r4 := r100 - 1461 * n4
  let n1 := min (r4 / 365) 3
  400 * n400 + 100 * n100 + 4 * n4 + n1 + 1

def yearOf (day : Int) : Int := yearOfCount (day + epochOffset)

def monthStarts (leap : Bool) : List Int :=
  let f : Int := if leap then 1 else 0
  [0, 31, 59 + f, 90 + f, 120 + f, 151 + f, 181 + f, 212 + f, 243 + f, 273 + f, 304 + f, 334 + f]

/-- The place of a day in its year, from 0. -/
def dayOfYear (day : Int) : Int := day - startOfYear (yearOf day)

/-- The last of ascending starts that is not after `n`, and how many there are up to it. -/
def lastStart (n : Int) : List Int → Nat × Int
  | [] => (0, 0)
  | s :: rest =>
    if n < s then (0, 0)
    else
      let (k, t) := lastStart n rest
      if k = 0 then (1, s) else (k + 1, t)

structure Date where
  year : Int
  month : Nat
  day : Int
  deriving Repr, DecidableEq

def dateOf (day : Int) : Date :=
  let year := yearOf day
  let n := dayOfYear day
  let (month, start) := lastStart n (monthStarts (isLeap year))
  ⟨year, month, n - start + 1⟩

def monthLength (leap : Bool) : Nat → Int
  | 2 => if leap then 29 else 28
  | 4 | 6 | 9 | 11 => 30
  | _ => 31

def yearLength (leap : Bool) : Int := if leap then 366 else 365

/-- The day of the same month with another number, if the month has it. -/
def withDay? (day number : Int) : Option Int :=
  let date := dateOf day
  if 1 ≤ number ∧ number ≤ monthLength (isLeap date.year) date.month then
    some (day - date.day + number)
  else none

/-- The day at another place of the same year, counted from 1, if the year has it. -/
def withOrdinal? (day number : Int) : Option Int :=
  if 1 ≤ number ∧ number ≤ yearLength (isLeap (yearOf day)) then
    some (startOfYear (yearOf day) + number - 1)
  else none

def weekday (day : Int) : Int := (day + 4) % 7

/-- The first moment that has a date: the start of the year -262143. -/
def firstMoment : Int := -8334601228800

/-- The last moment that has a date: the end of the year 262142. -/
def lastMoment : Int := 8210266876799

/-- The ISO year of a day and the week in it: weeks begin on Monday and belong to the year of
their Thursday. -/
def isoWeek (day : Int) : Int × Int :=
  let thursday := day - (weekday day + 6) % 7 + 3
  (yearOf thursday, dayOfYear thursday / 7 + 1)

end Reports.Calendar
