import Reports.CommandLine.Program
import Reports.Sqlite.Catalogue
import Std.Time.DateTime.Timestamp

/-! The program in its surroundings: arguments, environment, files and the clock. A database is a
file with a catalogue. -/
namespace Reports.CommandLine

def readText (path : String) : IO (Option String) := do
  try return some (← IO.FS.readFile path) catch _ => return none

def readVariables : List String → IO (List (String × String))
  | [] => return []
  | name :: rest => do
    let others ← readVariables rest
    match ← IO.getEnv name with
    | some value => return (name, value) :: others
    | none => return others

def readFiles : List String → IO (List (String × String))
  | [] => return []
  | path :: rest => do
    let others ← readFiles rest
    match ← readText path with
    | some text => return (path, text) :: others
    | none => return others

def databaseFile? (environment : List (String × String)) : List String :=
  match (OrderedMap.lookup "QUARRY_DATABASE_URL" environment).bind Sqlite.Location.read? with
  | some (.file path _) => [path]
  | _ => []

def databaseOf (files : List (String × String)) (path : String) : Option Storage := do
  let text ← OrderedMap.lookup path files
  if text.isEmpty then return Sqlite.Catalogue.blank.storage
  let catalogue ← (Json.read text).bind Sqlite.Catalogue.ofJson
  return catalogue.storage

end Reports.CommandLine

open Reports Reports.CommandLine

def main (arguments : List String) : IO UInt32 := do
  let environment ← readVariables Settings.variableNames
  let paths :=
    ((Arguments.read? arguments).map (·.preferences)).toList ++ databaseFile? environment
  let files ← readFiles paths
  let now : Calendar.Moment := ⟨(← Std.Time.Timestamp.now).toNanosecondsSinceUnixEpoch.val⟩
  let outcome := execute {
    valueOf := fun name => OrderedMap.lookup name environment
    textOf := fun path => OrderedMap.lookup path files
    databases := {
      stored := databaseOf files
      creatable := fun _ => false
      blank := Sqlite.Catalogue.blank.storage }
    now } arguments
  IO.print outcome.output
  match outcome.complaint? with
  | some complaint => IO.eprintln complaint
  | none => pure ()
  return outcome.exitCode
