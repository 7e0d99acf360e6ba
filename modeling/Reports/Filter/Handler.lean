import Reports.Filter.Choice
import Reports.Filter.DateRange

/-! What a filter does with the values given to it. Conditions take their values from the
context and always apply. -/
namespace Reports.Filter

/-- Who looks at a report, and where. -/
structure Context where
  userId : Int := 0
  courseId : Option Int := none
  groupIds : List Int := []
  now : Calendar.Moment := 0
  isAdmin : Bool := false
  /-- Comes before the names of tables that filters read. -/
  tablePrefix : String := ""
  deriving Repr, DecidableEq, Inhabited

inductive Condition
  | loggedInUser
  | currentCourse
  | myGroups
  | enrolledCourses
  deriving Repr, DecidableEq

namespace Condition

def enrolments (userId : Int) : Sql.Template :=
  ⟨[.text ("SELECT e.courseid FROM \x7benrol\x7d e JOIN \x7buser_enrolments\x7d ue " ++
      "ON ue.enrolid = e.id WHERE ue.userid = "), .hole (.ofInt userId)], ∅⟩

/-- Without a course, or without groups, no row matches. -/
def predicate (c : Condition) (selector : String) (ctx : Context) : Sql.Predicate :=
  match c with
  | loggedInUser => .new selector [.ofInt ctx.userId] .equal
  | currentCourse =>
    match ctx.courseId with
    | some id => .new selector [.ofInt id] .equal
    | none => .never selector
  | myGroups =>
    if ctx.groupIds.isEmpty then .never selector
    else .new selector (ctx.groupIds.map .ofInt) .inList
  | enrolledCourses => (Sql.Predicate.new selector [] .inQuery).setSubquery (enrolments ctx.userId)

end Condition

inductive Handler
  | value
  | text
  | date (functions : List String)
  | select (selection : Selection)
  | condition (condition : Condition)

namespace Handler

/-- The date filter that offers these functions; all must be known. -/
def newDate : List String → Except Error Handler
  | functions =>
    match functions.find? fun f => (DateRange.ofName? f).isNone with
    | some f => .error (.invalidDateFunction f)
    | none => .ok (.date functions)

def everyDate : Handler := .date (DateRange.all.map DateRange.name)

def isCondition : Handler → Bool
  | condition _ => true
  | _ => false

def defaultOperator? : Handler → Option Sql.Operator
  | text => some .likeWildcard
  | _ => none

def defaultValue? : Handler → Option Json
  | select s => s.defaultValue?
  | _ => none

/-- Checks a value from a user and gives its stored form. -/
def validate (h : Handler) (name : String) (value : Json) : Except Error Json :=
  match h with
  | text =>
    match value with
    | .string s => .ok (.string (Text.trim s))
    | .number n => .ok (.string n.text)
    | _ => .error (.invalidValue name "expected text")
  | date functions =>
    match value with
    | .string f =>
      if functions.contains f then .ok value
      else .error (.invalidValue name ("unknown date function " ++ value.text))
    | _ => .error (.invalidValue name ("unknown date function " ++ value.text))
  | select s => s.validate name value
  | _ => .ok value

/-- The predicate for the value in effect; none when the filter restricts nothing. -/
def predicate? (h : Handler) (selector : String) (op : Sql.Operator) (value : Option Json)
    (ctx : Context) : Except Error (Option Sql.Predicate) :=
  match h with
  | Handler.value => .ok (value.map fun v => .new selector [v] op)
  | text =>
    match value with
    | some (.string s) => .ok (if s.isEmpty then none else some (.new selector [.string s] op))
    | _ => .ok none
  | date _ =>
    match value with
    | some (.string f) =>
      match DateRange.ofName? f with
      | some range =>
        match range.bound? ctx.now with
        | some (op, timestamp) => .ok (some (.new selector [.ofInt timestamp] op))
        | none => .error .clockOutOfRange
      | none => .error (.invalidDateFunction f)
    | _ => .ok none
  | select s => .ok (value.bind fun v => s.predicate? selector op v)
  | condition c => .ok (some (c.predicate selector ctx))

end Handler

end Reports.Filter
