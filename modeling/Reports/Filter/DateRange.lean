import Reports.Calendar.Moment
import Reports.Sql.Vocabulary

/-! Ranges of time relative to a clock, by name. Each is one bound on a timestamp. -/
namespace Reports.Filter

inductive DateRange
  | today
  | last7Days
  | last30Days
  | thisMonth
  | thisYear
  | beforeToday
  deriving Repr, DecidableEq

namespace DateRange

def name : DateRange → String
  | today => "today"
  | last7Days => "last_7_days"
  | last30Days => "last_30_days"
  | thisMonth => "this_month"
  | thisYear => "this_year"
  | beforeToday => "before_today"

def all : List DateRange := [today, last7Days, last30Days, thisMonth, thisYear, beforeToday]

def ofName? (name : String) : Option DateRange := all.find? fun r => r.name == name

def secondsOf (day : Int) : Int := day * Calendar.secondsPerDay

/-- The comparison and the timestamp compared with. -/
def bound? (now : Calendar.Moment) : DateRange → Option (Sql.Operator × Int)
  | today => some (.greaterOrEqual, secondsOf now.day)
  | last7Days => (now.daysAgo? 7).map fun m => (.greaterOrEqual, m.second)
  | last30Days => (now.daysAgo? 30).map fun m => (.greaterOrEqual, m.second)
  | thisMonth =>
    some (.greaterOrEqual, secondsOf ((Calendar.withDay? now.day 1).getD now.day))
  | thisYear =>
    some (.greaterOrEqual, secondsOf ((Calendar.withOrdinal? now.day 1).getD now.day))
  | beforeToday => some (.lessThan, secondsOf now.day)

end DateRange

end Reports.Filter
