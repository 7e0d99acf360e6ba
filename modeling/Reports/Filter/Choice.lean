import Reports.Sql.Predicate
import Reports.Json.Reader

/-! Choices: filters whose values come from a list of options. -/
namespace Reports.Filter

def allText : String := "all"

def allValue : Json := .string allText

def isAll : Json → Bool
  | .string s => Text.lower s == allText
  | _ => false

structure Choice where
  value : Json
  label : String
  deriving Repr, Inhabited

namespace Choice

def toJson (c : Choice) : Json := .object [("value", c.value), ("label", .string c.label)]

def ofTree (t : Json.Tree) : Option Choice := do
  let m ← t.fields ["value", "label"]
  return {
    value := ← (← m.get? "value").toJson Json.read (Json.depthLimit - 1)
    label := ← (← m.get? "label").asString }

end Choice

/-- What choosing all options does: nothing, or restrict to the options there are. -/
inductive AllPolicy
  | ignore
  | expandOptions
  deriving Repr, DecidableEq, Inhabited

namespace AllPolicy

def name : AllPolicy → String
  | ignore => "ignore"
  | expandOptions => "expand_options"

def ofName? : String → Option AllPolicy
  | "ignore" => some ignore
  | "expand_options" => some expandOptions
  | _ => none

end AllPolicy

/-- Where options come from. A query gives values in its first column and labels in its second. -/
inductive OptionSource
  | fixed (options : List Choice)
  | query (statement : Sql.Statement)
  deriving Repr

structure Selection where
  source : OptionSource
  options : List Choice
  policy : AllPolicy
  multiple : Bool
  deriving Repr

namespace Selection

/-- Options of a query are not known yet. -/
def new (source : OptionSource) (policy : AllPolicy := .ignore) (multiple : Bool := false) :
    Selection :=
  { source, policy, multiple,
    options := match source with
      | .fixed options => options
      | .query _ => [] }

def optionOfRow (row : Row) : Option Choice :=
  match row.values with
  | [] => none
  | [value] => some ⟨value, value.plain⟩
  | value :: label :: _ => some ⟨value, label.plain⟩

def findOption? (s : Selection) (value : Json) : Option Json :=
  (s.options.find? fun o => o.value.plain == value.plain).map (·.value)

def optionValues (s : Selection) : List Json := s.options.map (·.value)

/-- A single option is preset; of several, all are. -/
def defaultValue? (s : Selection) : Option Json :=
  match s.options with
  | [] => none
  | [only] => some only.value
  | _ => some allValue

def notAnOption (name : String) (value : Json) : Error :=
  .invalidValue name ("'" ++ value.plain ++ "' is not an option")

def resolve (s : Selection) (name : String) (value : Json) : Except Error Json :=
  match s.findOption? value with
  | some option => .ok option
  | none => .error (notAnOption name value)

def resolveAll (s : Selection) (name : String) : List Json → Except Error (List Json)
  | [] => .ok []
  | v :: rest => do
    let option ← s.resolve name v
    let options ← s.resolveAll name rest
    return option :: options

/-- The stored form of a value: the options themselves. While no options are known every value
is accepted as it is. -/
def validate (s : Selection) (name : String) (value : Json) : Except Error Json :=
  if isAll value then .ok allValue
  else if s.options.isEmpty then .ok value
  else match value with
    | .array items =>
      if s.multiple then do
        let options ← s.resolveAll name items
        return .array options
      else .error (.invalidValue name "multiple values not allowed")
    | single => s.resolve name single

/-- A list is membership; a single value is compared with the filter's operator. -/
def predicate? (s : Selection) (selector : String) (op : Sql.Operator) (value : Json) :
    Option Sql.Predicate :=
  if isAll value then
    match s.policy with
    | .ignore => none
    | .expandOptions =>
      if s.options.isEmpty then some (.never selector)
      else some (.new selector s.optionValues .inList)
  else match value with
    | .array items => some (.new selector items .inList)
    | single => some (.new selector [single] op)

end Selection

end Reports.Filter
