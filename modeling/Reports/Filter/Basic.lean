import Reports.Filter.Handler
import Reports.Json.Access

/-! Filters: named restrictions of a report, each bound to an expression. -/
namespace Reports.Filter

inductive Clause
  | whereClause
  | havingClause
  deriving Repr, DecidableEq, Inhabited

namespace Clause

def name : Clause → String
  | whereClause => "where"
  | havingClause => "having"

def ofName? : String → Option Clause
  | "where" => some whereClause
  | "having" => some havingClause
  | _ => none

end Clause

end Filter

structure Filter where
  name : String
  selector : String
  label : String
  operator : Sql.Operator := .equal
  required : Bool := false
  clause : Filter.Clause := .whereClause
  /-- The value that a user has chosen, in its stored form. -/
  raw : Option Json := none
  handler : Filter.Handler := .value

namespace Filter

/-- A plain comparison, labelled with its own name. -/
def new (name selector : String) : Filter := { name, selector, label := name }

def withHandler (f : Filter) (h : Handler) : Filter :=
  { f with handler := h, operator := h.defaultOperator?.getD f.operator }

def withLabel (f : Filter) (label : String) : Filter := { f with label }

def withOperator (f : Filter) (operator : Sql.Operator) : Filter := { f with operator }

def withClause (f : Filter) (clause : Clause) : Filter := { f with clause }

def withRequired (f : Filter) (required : Bool) : Filter := { f with required }

def isCondition (f : Filter) : Bool := f.handler.isCondition

def defaultValue? (f : Filter) : Option Json := f.handler.defaultValue?

/-- The chosen value, else the default. -/
def effectiveValue? (f : Filter) : Option Json := f.raw.or f.defaultValue?

def setRaw (f : Filter) (value : Json) : Except Error Filter := do
  let stored ← f.handler.validate f.name value
  return { f with raw := some stored }

def clear (f : Filter) : Filter := { f with raw := none }

/-- Conditions are always applied, other filters when a chosen value differs from the default. -/
def isApplied (f : Filter) : Bool :=
  f.isCondition ||
    match f.raw with
    | none => false
    | some v =>
      match f.defaultValue? with
      | none => true
      | some d => !v.same d

def predicate? (f : Filter) (ctx : Context) : Except Error (Option Sql.Predicate) :=
  f.handler.predicate? f.selector f.operator (if f.isCondition then none else f.effectiveValue?) ctx

def toJson (f : Filter) : Json :=
  .object [("name", f.name), ("selector", f.selector), ("label", f.label),
    ("operator", f.operator.name), ("required", f.required),
    ("having", f.clause == .havingClause), ("condition", f.isCondition),
    ("raw", .array f.raw.toList), ("default", .array f.defaultValue?.toList),
    ("effective", .array f.effectiveValue?.toList), ("applied", f.isApplied)]

end Filter

end Reports
