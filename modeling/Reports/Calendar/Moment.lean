import Reports.Calendar.Date

/-! Moments with their fraction of a second. -/
namespace Reports.Calendar

def nanosecondsPerSecond : Int := 1000000000

/-- A moment of universal time, in nanoseconds from the start of 1970. Leap seconds are not
counted. -/
structure Moment where
  nanoseconds : Int
  deriving Repr, DecidableEq, Inhabited

namespace Moment

def ofSeconds (seconds : Int) : Moment := ⟨seconds * nanosecondsPerSecond⟩

instance : Coe Int Moment := ⟨ofSeconds⟩

instance (n : Nat) : OfNat Moment n := ⟨ofSeconds n⟩

def second (m : Moment) : Int := m.nanoseconds / nanosecondsPerSecond

def day (m : Moment) : Int := dayOf m.second

/-- The same time of day some days before, if that has a date. -/
def daysAgo? (m : Moment) (days : Int) : Option Moment :=
  let before : Moment := ⟨m.nanoseconds - days * secondsPerDay * nanosecondsPerSecond⟩
  if firstMoment ≤ before.second then some before else none

@[simp] theorem second_ofSeconds (seconds : Int) : (ofSeconds seconds).second = seconds := by
  simp only [second, ofSeconds, nanosecondsPerSecond]
  omega

theorem daysAgo?_eq_some {m : Moment} {days : Int}
    (late : firstMoment ≤ m.second - days * secondsPerDay) :
    ∃ before, m.daysAgo? days = some before ∧
    before.second = m.second - days * secondsPerDay := by
  let before : Moment := ⟨m.nanoseconds - days * secondsPerDay * nanosecondsPerSecond⟩
  have second : before.second = m.second - days * secondsPerDay := by
    simp only [before, Moment.second, nanosecondsPerSecond, secondsPerDay]
    omega
  exact ⟨before, if_pos (second ▸ late), second⟩

end Moment

end Reports.Calendar
