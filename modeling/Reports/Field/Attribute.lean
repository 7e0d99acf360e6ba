import Reports.Field.Lookup
import Reports.Field.Link
import Reports.Calendar.Pattern

/-! Attributes: steps that turn the raw value of a cell into what is shown. -/
namespace Reports.Field

/-- A share of one, from the cell or from two columns. -/
structure Percentage where
  part : Option String := none
  whole : Option String := none
  decimals : Nat := 0
  deriving Repr, DecidableEq

inductive Attribute
  | identifier
  | link (link : Link)
  | image (altField : Option String)
  | date (pattern : String)
  /-- How long ago, by this clock or by the clock of the report. -/
  | timeAgo (clock : Option Int)
  | percentage (share : Percentage)
  | truth (yes no : String)
  | valueMap (entries : OrderedMap String Json)
  | linkedData (lookup : Lookup) (separator : String)
  | custom (name : String) (f : Json → Row → Json)

/-- What attributes read besides the row. -/
structure Reading where
  labels : Labels := Labels.empty
  clock : Int := 0

def numberOf? : Json → Option Binary64.Extended
  | .number n => some n.toExtended
  | .string s => Binary64.read (Text.trim s)
  | .bool b => some (Binary64.ofNat false (if b then 1 else 0))
  | _ => none

/-- A moment after the start of 1970, within the calendar. -/
def momentOf? (v : Json) : Option Int := do
  let seconds := (← numberOf? v).toInt64
  if 0 < seconds ∧ seconds ≤ Calendar.lastMoment then some seconds else none

def agoText (seconds : Int) : String :=
  if seconds < 60 then "just now"
  else
    let (n, unit) :=
      if seconds < 3600 then (seconds / 60, "minute")
      else if seconds < 86400 then (seconds / 3600, "hour")
      else if seconds < 30 * 86400 then (seconds / 86400, "day")
      else if seconds < 365 * 86400 then (seconds / (30 * 86400), "month")
      else (seconds / (365 * 86400), "year")
    Text.signedDecimal n ++ " " ++ unit ++ (if n = 1 then "" else "s") ++ " ago"

/-- Texts that count as false, and empty cells; of numbers, zero. -/
def isTruthy : Json → Bool
  | .null => false
  | .bool b => b
  | .string s =>
    let t := Text.trim s
    !(t == "" || t == "0" || t == "false")
  | v =>
    match numberOf? v with
    | some x => !x.isZero
    | none => false

/-- Most decimals that a percentage can be written with. -/
def maxDecimals : Nat := 65535

namespace Percentage

def hundred : Binary64.Extended := Binary64.ofNat false 100

def value? (p : Percentage) (cell : Json) (row : Row) : Option Binary64.Extended :=
  match p.part, p.whole with
  | some part, some whole => do
    let v ← (row.get? part).bind numberOf?
    let w ← (row.get? whole).bind numberOf?
    return if w.isZero then .finite (Binary64.zero false) else (v.div w).mul hundred
  | _, _ => (numberOf? cell).map fun x => x.mul hundred

/-- Names the columns, as far as they are given. -/
def bind (p : Percentage) (part whole : Option String) : Percentage :=
  { p with part := part.or p.part, whole := whole.or p.whole }

def apply (p : Percentage) (cell : Json) (row : Row) : Option Json :=
  match p.value? cell row with
  | none => some .null
  | some x =>
    if maxDecimals < p.decimals then none else some (.string (x.fixed p.decimals ++ "%"))

end Percentage

namespace Attribute

def name : Attribute → String
  | identifier => "identifier"
  | link _ => "link"
  | image _ => "image"
  | date _ => "date"
  | timeAgo _ => "timeago"
  | percentage _ => "percentage"
  | truth _ _ => "bool"
  | valueMap _ => "value_map"
  | linkedData _ _ => "linked_data"
  | custom name _ => name

def isIdentifier : Attribute → Bool
  | identifier => true
  | _ => false

def lookup? : Attribute → Option Lookup
  | linkedData l _ => some l
  | _ => none

def withTablePrefix (tablePrefix : String) : Attribute → Attribute
  | linkedData l separator => linkedData { l with tablePrefix } separator
  | a => a

def optionalText (key : String) : Option String → List (String × Json)
  | some s => [(key, .string s)]
  | none => []

def options : Attribute → Params
  | link l =>
    ⟨[("url", .string l.template), ("button", .bool l.button)] ++
      optionalText "label_field" l.labelField⟩
  | date pattern => ⟨[("format", .string pattern)]⟩
  | percentage p =>
    ⟨("decimals", .ofNat p.decimals) :: (optionalText "value_field" p.part ++
      optionalText "outof_field" p.whole)⟩
  | _ => ∅

/-- The shown value; none when the attribute's own settings cannot be carried out. The row is
the raw row. -/
def apply (r : Reading) (a : Attribute) (value : Json) (row : Row) : Option Json :=
  match a with
  | identifier => some value
  | link l => some (l.apply value row)
  | image altField =>
    let source := value.cellText
    if source.isEmpty then some .null
    else
      let alt := (altField.map (columnText row)).getD ""
      some (.string ("<img src=\"" ++ Text.escapeMarkup source ++ "\" alt=\"" ++
        Text.escapeMarkup alt ++ "\">"))
  | date pattern =>
    match momentOf? value with
    | some seconds => (Calendar.format pattern seconds).map .string
    | none => some .null
  | timeAgo clock =>
    match momentOf? value with
    | some seconds => some (.string (agoText (clock.getD r.clock - seconds)))
    | none => some .null
  | percentage p => p.apply value row
  | truth yes no => some (.string (if isTruthy value then yes else no))
  | valueMap entries => some ((entries.get? value.cellText).getD value)
  | linkedData l separator =>
    let ids := idsOf value
    if ids.isEmpty then some value
    else some (.string (Text.join separator (ids.filterMap (r.labels.get? l))))
  | custom _ f => some (f value row)

end Attribute

end Reports.Field
