import Reports.CommandLine.Arguments
import Reports.Database
import Reports.Report.Summary
import Reports.UserStore

/-! The program: it runs a report and prints its rows, or prints the statements it would run. -/
namespace Reports.CommandLine

structure Surroundings where
  valueOf : String → Option String
  textOf : String → Option String
  databases : Databases
  now : Calendar.Moment

inductive Outcome
  | success (output : String)
  | failure (message : String)
  | misuse
  deriving Repr

namespace Outcome

def exitCode : Outcome → UInt32
  | success _ => 0
  | failure _ => 1
  | misuse => 2

def output : Outcome → String
  | success s => s
  | _ => ""

def complaint? : Outcome → Option String
  | failure message => some ("Error: " ++ message)
  | _ => none

/-- The first line of the complaint. A line ends with a line feed, and a carriage return right
before it belongs to its end. -/
def headline? (o : Outcome) : Option String :=
  o.complaint?.map fun s =>
    let line := s.toList.takeWhile (· != '\n')
    String.ofList (if line.getLast? = some '\r' then line.dropLast else line)

end Outcome

def readFilter (raw : String) : Except String (String × Json) :=
  match splitAssignment raw with
  | some (name, value) => .ok (Text.trim name, (Json.read value).getD (.string value))
  | none => .error ("filter '" ++ raw ++ "' must be name=value")

def unknownSource (source : String) : String :=
  "unknown source '" ++ source ++ "', expected one of: " ++ Text.join ", " Report.builtinNames

/-- An action with the request, whose failure is a message. -/
abbrev Work (α : Type) := ExceptT String (StateT Request (StateM Session)) α

def attempt {α : Type} (words : Error → String) (x : RequestAction α) : Work α := fun r s =>
  let ((a, r), s) := x r s
  ((match a with
    | .ok a => .ok a
    | .error e => .error (words e), r), s)

def request (here : Surroundings) (settings : Settings) (args : Arguments) :
    Except String Request := do
  let report ← match Report.builtin? args.source with
    | some report => pure report
    | none => throw (unknownSource args.source)
  let text ← match here.textOf args.preferences with
    | some text => pure text
    | none => throw ("failed to read preferences from " ++ args.preferences)
  let preferences ← match Preferences.read text with
    | some p => pure p
    | none => throw ("invalid preferences in " ++ args.preferences)
  let storage ← match here.databases.connect settings.databaseUrl settings.maxConnections with
    | .ok st => pure st
    | .error _ => throw "failed to connect to database"
  let context : Filter.Context := {
    userId := args.userId, courseId := args.courseId, groupIds := args.groupIds
    now := here.now, isAdmin := args.admin }
  match Request.new report storage context here.now.second with
  | .error e => throw e.message
  | .ok r =>
    let r := ((r.withSettings settings).withPreferences preferences).withPage args.page
    match args.sort with
    | none => return r
    | some field =>
      match Sql.Direction.read? args.direction with
      | some direction => return r.withSort field direction
      | none => throw (Error.invalidSortDirection args.direction).message

def applyFilters : List String → Work Unit
  | [] => return ()
  | raw :: rest => do
    let (name, value) ← (readFilter raw : Except String (String × Json))
    let _ ← attempt Error.message (Request.applyFilter name value)
    applyFilters rest

/-- Loads the options and applies the filters of the arguments. Choices saved elsewhere are out of
reach, but their address has to be right. -/
def prepare (settings : Settings) (args : Arguments) : Work Unit := do
  attempt (fun _ => "failed to load filter options") Request.init
  match UserStore.connect settings.redisUrl with
  | .error e => throw e.message
  | .ok _ => applyFilters args.filters

def statementText (title : String) (s : Sql.Statement) : String :=
  "-- " ++ title ++ "\n" ++ s.sql ++ ";\n-- params: " ++ (Json.ofMap s.params).text ++ "\n"

def printRows (args : Arguments) : Work String := do
  match ← attempt (Error.userMessage args.admin) Request.getData with
  | some rows => return rows.toJson.pretty 0 ++ "\n"
  | none => throw "the rows cannot be shown"

def printSql : Work String := attempt Error.message do
  let r ← Request.current
  let q ← Request.getQuery
  let data ← Request.act (Session.draw (q.render r.dialect))
  let count ← Request.act (Session.draw ((Sql.Count.derive q true).render r.dialect))
  return statementText "data" data ++ statementText "count" count

def execute (here : Surroundings) (arguments : List String) : Outcome :=
  match Arguments.read? arguments with
  | none => .misuse
  | some args =>
    match Settings.ofVariables here.valueOf with
    | .error _ => .failure "failed to load configuration"
    | .ok settings =>
      match request here settings args with
      | .error message => .failure message
      | .ok r =>
        let work : Work String := do
          prepare settings args
          match args.command with
          | .run => printRows args
          | .sql => printSql
        match (work r {}).1.1 with
        | .ok output => .success output
        | .error message => .failure message

end Reports.CommandLine
