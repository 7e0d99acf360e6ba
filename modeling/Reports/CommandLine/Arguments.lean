import Reports.OrderedMap
import Reports.Text.Numeral
import Reports.Text.Basic

/-! Arguments of the program: a command, then options with values as `--name value` or
`--name=value`. -/
namespace Reports.CommandLine

inductive Command
  | run
  | sql
  deriving Repr, DecidableEq

def Command.ofName? : String → Option Command
  | "run" => some run
  | "sql" => some sql
  | _ => none

structure Arguments where
  command : Command
  source : String
  preferences : String
  userId : Int := 0
  courseId : Option Int := none
  groupIds : List Int := []
  page : UInt32 := 1
  sort : Option String := none
  direction : String := "asc"
  /-- Assignments `name=value`. -/
  filters : List String := []
  admin : Bool := false
  deriving Repr

namespace Arguments

/-- How often an option may stand, and whether it has a value. -/
inductive Arity
  | once
  | many
  | flag
  deriving Repr, DecidableEq

def arity? : String → Option Arity
  | "source" | "preferences" | "user-id" | "course-id" | "page" | "sort" | "direction" => some .once
  | "group-id" | "filter" => some .many
  | "admin" => some .flag
  | _ => none

abbrev Given := OrderedMap String (List String)

/-- One more value of an option. A flag has none, and only some options may stand twice. -/
def give (given : Given) (name : String) (value : Option String) : Option Given := do
  let before := (given.get? name).getD []
  match ← arity? name, value with
  | .flag, none => if before.isEmpty then return given.insert name [""] else none
  | .once, some v => if before.isEmpty then return given.insert name [v] else none
  | .many, some v => return given.insert name (before ++ [v])
  | _, _ => none

/-- Texts with a hyphen in front are no values, but for the hyphen alone. -/
def isValue (text : String) : Bool := text == "-" || text.toList.head? != some '-'

def optionOf (text : String) : Option (String × Option String) :=
  match text.toList with
  | '-' :: '-' :: rest =>
    match Text.splitFirst '=' rest with
    | some (name, value) => some (String.ofList name, some (String.ofList value))
    | none => some (String.ofList rest, none)
  | _ => none

/-- The values of options in front. Two hyphens end the options, and nothing may follow. -/
def collect (given : Given) : List String → Option Given
  | [] | ["--"] => some given
  | text :: rest => do
    let (name, value) ← optionOf text
    match value, arity? name with
    | none, some .flag | some _, _ =>
      let given ← give given name value
      collect given rest
    | none, _ =>
      match rest with
      | value :: rest =>
        if isValue value then
          let given ← give given name (some value)
          collect given rest
        else none
      | [] => none

def value? (given : Given) (name : String) : Option String := ((given.get? name).getD []).head?

def reading {α : Type} (given : Given) (name : String) (default : α)
    (read : String → Option α) :
    Option α :=
  match value? given name with
  | some v => read v
  | none => some default

def int? (text : String) : Option Int := (Text.readInt64 text).toOption

def page? (text : String) : Option UInt32 := do
  let n ← int? text
  if 0 ≤ n ∧ n ≤ maxUInt32 then return UInt32.ofNat n.toNat else none

def read? : List String → Option Arguments
  | [] => none
  | name :: rest => do
    let command ← Command.ofName? name
    let given ← collect ∅ rest
    let preferences ← value? given "preferences"
    if preferences.isEmpty then none
    return {
      command, preferences
      source := ← value? given "source"
      userId := ← reading given "user-id" 0 int?
      courseId := ← reading given "course-id" none fun t => (int? t).map some
      groupIds := ← ((given.get? "group-id").getD []).mapM int?
      page := ← reading given "page" 1 page?
      sort := value? given "sort"
      direction := (value? given "direction").getD "asc"
      filters := (given.get? "filter").getD []
      admin := given.contains "admin" }

end Arguments

def splitAssignment (raw : String) : Option (String × String) :=
  (Text.splitFirst '=' raw.toList).map fun parts =>
    (String.ofList parts.1, String.ofList parts.2)

end Reports.CommandLine
