import Reports.Json.Reader
import Reports.Field.Basic
import Reports.Filter.Basic
import Reports.Report.Page
import Reports.Text.Numeral

/-! Preferences: what the owner of a dashboard has configured for one report. -/
namespace Reports

inductive Layout
  | table
  | grid
  | accordion
  | timeline
  | stat
  deriving Repr, DecidableEq, Inhabited

namespace Layout

def name : Layout → String
  | table => "table"
  | grid => "grid"
  | accordion => "accordion"
  | timeline => "timeline"
  | stat => "stat"

def ofName? : String → Option Layout
  | "table" => some table
  | "grid" => some grid
  | "accordion" => some accordion
  | "timeline" => some timeline
  | "stat" => some stat
  | _ => none

def isPaginated : Layout → Bool
  | table | grid | accordion => true
  | timeline | stat => false

end Layout

structure FieldPreference where
  visible : Bool := true
  /-- Place among the visible fields, ascending; 64 signed bits. -/
  sortOrder : Int := 0
  deriving Repr, DecidableEq, Inhabited

structure FilterPreference where
  enabled : Bool := false
  deriving Repr, DecidableEq, Inhabited

structure Preferences where
  /-- When empty, fields are shown as they are defined. -/
  fields : OrderedMap String FieldPreference := ∅
  filters : OrderedMap String FilterPreference := ∅
  /-- The field sorted by when a request names none. -/
  defaultSort : Option String := none
  defaultDirection : Sql.Direction := .asc
  layout : Layout := .table
  perPage : Option UInt32 := none
  deriving Repr, DecidableEq, Inhabited

namespace FieldPreference

def ofTree (t : Json.Tree) : Option FieldPreference := do
  let m ← t.fields ["visible", "sortorder"]
  return {
    visible := ← match m.get? "visible" with
      | some t => t.asBool
      | none => some true
    sortOrder := ← match m.get? "sortorder" with
      | some t => t.asInt minInt64 maxInt64
      | none => some 0 }

def toJson (p : FieldPreference) : Json :=
  .object [("visible", .bool p.visible), ("sortorder", .ofInt p.sortOrder)]

end FieldPreference

namespace FilterPreference

def ofTree (t : Json.Tree) : Option FilterPreference := do
  let m ← t.fields ["enabled"]
  return {
    enabled := ← match m.get? "enabled" with
      | some t => t.asBool
      | none => some false }

def toJson (p : FilterPreference) : Json := .object [("enabled", .bool p.enabled)]

end FilterPreference

namespace Preferences

def part {α : Type} (m : OrderedMap String Json.Tree) (key : String) (default : α)
    (read : Json.Tree → Option α) : Option α :=
  match m.get? key with
  | some t => read t
  | none => some default

def fieldNames : List String :=
  ["available_fields", "filters", "default_sort", "default_sort_direction", "layout", "per_page"]

def ofTree (t : Json.Tree) : Option Preferences := do
  let m ← t.fields fieldNames
  return {
    fields := ← part m "available_fields" ∅ fun t => t.asMap FieldPreference.ofTree
    filters := ← part m "filters" ∅ fun t => t.asMap FilterPreference.ofTree
    defaultSort := ← part m "default_sort" none fun t => t.asOption Json.Tree.asString
    defaultDirection := ← part m "default_sort_direction" .asc fun t =>
      t.name.bind Sql.Direction.ofName?
    layout := ← part m "layout" .table fun t => t.name.bind Layout.ofName?
    perPage := ← part m "per_page" none fun t => t.asOption PageInfo.asUInt32 }

def read (text : String) : Option Preferences := (Json.Tree.read text).bind ofTree

def toJson (p : Preferences) : Json :=
  .object [
    ("available_fields", .ofMap (p.fields.map FieldPreference.toJson)),
    ("filters", .ofMap (p.filters.map FilterPreference.toJson)),
    ("default_sort", (p.defaultSort.map Json.string).getD .null),
    ("default_sort_direction", .string p.defaultDirection.name),
    ("layout", .string p.layout.name),
    ("per_page", (p.perPage.map fun n => Json.ofNat n.toNat).getD .null)]

/-- Identifiers are always shown. Once any field is listed, only listed visible ones are. -/
def isFieldVisible (p : Preferences) (f : Field) : Bool :=
  if f.isIdentifier then true
  else if p.fields.isEmpty then f.isVisible
  else match p.fields.get? f.name with
    | some fp => fp.visible
    | none => false

def lastPlace : Int := maxInt64

def fieldOrder (p : Preferences) (name : String) : Int :=
  match p.fields.get? name with
  | some fp => fp.sortOrder
  | none => lastPlace

/-- Listed filters as they are set; of the others, those for users stay and conditions go. -/
def isFilterEnabled (p : Preferences) (f : Filter) : Bool :=
  match p.filters.get? f.name with
  | some fp => fp.enabled
  | none => !f.isCondition

end Preferences

end Reports
