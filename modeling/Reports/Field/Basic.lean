import Reports.Field.Attribute
import Reports.Json.Access

/-! Fields: the output columns of a report. -/
namespace Reports

/-- Whether a field is shown while nobody has said which fields to show. -/
inductive Field.Visibility
  | visible
  | hidden
  deriving Repr, DecidableEq, Inhabited

namespace Field.Visibility

def name : Visibility → String
  | visible => "visible"
  | hidden => "hidden"

def ofName? : String → Option Visibility
  | "visible" => some visible
  | "hidden" => some hidden
  | _ => none

end Field.Visibility

structure Field where
  name : String
  select : Option String
  title : String
  visibility : Field.Visibility := .visible
  sortable : Bool := true
  sortDirection : Sql.Direction := .asc
  sortSelect : Option String := none
  attributes : List Field.Attribute := []
  options : Params := ∅

namespace Field

def new (name : String) (select : Option String) (title : String) : Field := { name, select, title }

def withAttribute (f : Field) (a : Attribute) : Field :=
  { f with attributes := f.attributes ++ [a] }

def withOption (f : Field) (key : String) (value : Json) : Field :=
  { f with options := f.options.insert key value }

def setHidden (f : Field) (hidden : Bool) : Field :=
  { f with visibility := if hidden then .hidden else .visible }

def isHidden (f : Field) : Bool := f.visibility == .hidden

def isIdentifier (f : Field) : Bool := f.attributes.any (·.isIdentifier)

/-- Identifiers are never hidden. -/
def isVisible (f : Field) : Bool := !f.isHidden || f.isIdentifier

def sortExpression? (f : Field) : Option String := f.sortSelect.or f.select

def isSortable (f : Field) : Bool := f.sortable && f.sortExpression?.isSome

def setTablePrefix (f : Field) (tablePrefix : String) : Field :=
  { f with attributes := f.attributes.map (·.withTablePrefix tablePrefix) }

/-- Runs a value through attributes from left to right; each also sees the raw row. -/
def transformWith (r : Reading) (row : Row) (value : Json) : List Attribute → Option Json
  | [] => some value
  | a :: rest => do
    let v ← a.apply r value row
    transformWith r row v rest

def transform (r : Reading) (f : Field) (value : Json) (row : Row) : Option Json :=
  transformWith r row value f.attributes

def Attribute.toJson (a : Attribute) : Json :=
  .object [("name", a.name), ("options", .ofParams a.options), ("identifier", a.isIdentifier),
    ("lookup_table", .ofOption (fun l => l.qualifiedTable) a.lookup?)]

def toJson (f : Field) : Json :=
  .object [("name", f.name), ("select", .ofOption .string f.select), ("title", f.title),
    ("hidden", f.isHidden), ("visible", f.isVisible), ("identifier", f.isIdentifier),
    ("sortable", f.isSortable), ("sort_direction", f.sortDirection.sql),
    ("sort_expression", .ofOption .string f.sortExpression?), ("options", .ofParams f.options),
    ("attributes", .list Attribute.toJson f.attributes)]

end Field

end Reports
