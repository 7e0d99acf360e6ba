import Reports.Json.Printer
import Reports.Text.Scanner
import Reports.Text.Escape

/-! Links: an anchor whose address is a template with columns in braces. -/
namespace Reports.Field

structure Link where
  template : String
  button : Bool := false
  /-- The column that holds the label; the cell itself when there is none. -/
  labelField : Option String := none
  target : Option String := none
  deriving Repr, DecidableEq

def columnText (row : Row) (column : String) : String :=
  ((row.get? column).map Json.cellText).getD ""

namespace Link

inductive State
  | literal
  /-- After an opening brace and these characters, last first. -/
  | column (name : List Char)
  deriving Repr, DecidableEq

/-- The scanner that fills a template. A brace that is not closed is literal. -/
def scanner (value : String → String) : Text.Scanner State Char where
  step
    | .literal, c => if c = '\x7b' then ([], .column []) else ([c], .literal)
    | .column name, c =>
      if c = '\x7d' then ((value (String.ofList name.reverse)).toList, .literal)
      else ([], .column (c :: name))
  finish
    | .literal => []
    | .column name => '\x7b' :: name.reverse

def url (l : Link) (row : Row) : String :=
  String.ofList ((scanner fun column => Text.percentEncode (columnText row column)).run .literal
    l.template.toList)

/-- The anchor; a cell without a label is left as it is. -/
def apply (l : Link) (value : Json) (row : Row) : Json :=
  let label := match l.labelField with
    | some field => columnText row field
    | none => value.cellText
  if label.isEmpty then value
  else
    let target := match l.target with
      | some t => " target=\"" ++ Text.escapeMarkup t ++ "\""
      | none => ""
    let style := if l.button then " class=\"btn btn-secondary\"" else ""
    .string ("<a href=\"" ++ l.url row ++ "\"" ++ target ++ style ++ ">" ++
      Text.escapeMarkup label ++ "</a>")

end Link

end Reports.Field
