import Reports.Json.Basic

/-! Everything that can go wrong with a report, by cause. -/
namespace Reports

/-- Mistakes in a definition or a setting that have no constructor of their own. -/
inductive Misconfiguration
  | noSource
  | unboundParameter (name : String)
  | unsafeIdentifier (text : String)
  | other (text : String)
  deriving Repr

namespace Misconfiguration

def message : Misconfiguration → String
  | noSource => "query has no FROM table"
  | unboundParameter name => "no value bound for parameter :" ++ name
  | unsafeIdentifier text => "unsafe lookup identifier: " ++ text
  | other text => text

end Misconfiguration

inductive Error
  | missingSelect (field : String)
  | duplicateField (field : String)
  | duplicateFilter (filter : String)
  | missingJoinAlias (name : String)
  | invalidSortDirection (text : String)
  | invalidDateFunction (name : String)
  | unknownFilter (name : String)
  | unknownField (name : String)
  | configuration (cause : Misconfiguration)
  | emptyPredicate (selector operator : String)
  | unsupportedOperator (selector operator : String)
  | customOperator (selector : String)
  | invalidValue (filter reason : String)
  | execution (reason sql : String) (params : Params)
  | unavailable (cause : Error)
  | cache (reason : String)
  /-- A moment before the first one of the calendar is asked for. -/
  | clockOutOfRange
  deriving Repr

namespace Error

def message : Error → String
  | missingSelect field => "field '" ++ field ++ "' has no select expression"
  | duplicateField field => "duplicate field name: " ++ field
  | duplicateFilter filter => "duplicate filter name: " ++ filter
  | missingJoinAlias name => "missing join alias: " ++ name
  | invalidSortDirection text => "invalid sort direction: " ++ text
  | invalidDateFunction name => "invalid date function: " ++ name
  | unknownFilter name => "unknown filter: " ++ name
  | unknownField name => "unknown field: " ++ name
  | configuration cause => "configuration error: " ++ cause.message
  | emptyPredicate selector operator =>
    "empty predicate: operator " ++ operator ++ " on '" ++ selector ++
      "' requires at least one value"
  | unsupportedOperator selector operator =>
    "unsupported operator '" ++ operator ++ "' for '" ++ selector ++ "'"
  | customOperator selector => "custom operator on '" ++ selector ++ "' has no renderer attached"
  | invalidValue filter reason => "invalid value for filter '" ++ filter ++ "': " ++ reason
  | execution reason _ _ => "query execution failed: " ++ reason
  | unavailable _ => "unable to build report"
  | cache reason => "cache error: " ++ reason
  | clockOutOfRange => "the clock is out of range"

def isConfiguration : Error → Bool
  | missingSelect _ | duplicateField _ | duplicateFilter _ | missingJoinAlias _
  | invalidSortDirection _ | invalidDateFunction _ | unknownFilter _ | unknownField _
  | configuration _ => true
  | _ => false

def isValidation : Error → Bool
  | emptyPredicate _ _ | unsupportedOperator _ _ | customOperator _ | invalidValue _ _ => true
  | _ => false

/-- Whether the cause is neither a definition, a value nor a storage: such a failure is not
logged. -/
def isFault : Error → Bool
  | clockOutOfRange => true
  | unavailable cause => cause.isFault
  | _ => false

def userMessage (isAdmin : Bool) (e : Error) : String :=
  let generic := "Unable to load this report right now."
  if !isAdmin then generic
  else
    let detail := match e with
      | unavailable cause => cause.message
      | execution reason _ _ => reason
      | other => other.message
    generic ++ " (" ++ detail ++ ")"

end Error

end Reports
