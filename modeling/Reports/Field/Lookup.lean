import Reports.Ascending
import Reports.Sql.Rendering
import Reports.Session
import Reports.Text.Basic

/-! Labels for ids, read from lookup tables. Cells are never transformed with a storage at hand:
the labels of a page are loaded first, with one statement for each lookup. -/
namespace Reports.Field

structure Lookup where
  table : String
  keyColumn : String
  labelColumn : String
  tablePrefix : String := ""
  deriving Repr, DecidableEq, Inhabited

namespace Lookup

def qualifiedTable (l : Lookup) : String := l.tablePrefix ++ l.table

/-- Lookups with one key share their labels. -/
def key (l : Lookup) : String × String × String := (l.qualifiedTable, l.keyColumn, l.labelColumn)

/-- Names that are safe in SQL without quotes: at most 63 characters, all ASCII. -/
def isSafe (name : String) : Bool :=
  name.toUTF8.size ≤ 63 && Text.isName name.toList

def check (l : Lookup) : Except Error Unit :=
  match [l.qualifiedTable, l.keyColumn, l.labelColumn].find? fun n => !isSafe n with
  | some name => .error (.configuration (.unsafeIdentifier name))
  | none => .ok ()

def query (l : Lookup) (d : Sql.Dialect) (ids : List String) : Sql.Query :=
  let key := d.castToText ("l." ++ l.keyColumn)
  ((((Sql.Query.withPrefix l.tablePrefix).select key "k").select ("l." ++ l.labelColumn)
    "label").readFrom l.table "l").setDistinct false
    |>.filterBy (.new key (ids.map .string) .inList)

def entryOfRow (row : Row) : Option (String × String) := do
  let key ← (← row.get? "k").cellText?
  return (key, ((row.get? "label").bind Json.cellText?).getD "")

end Lookup

structure Labels where
  tables : OrderedMap (String × String × String) (OrderedMap String String) := ∅
  deriving Inhabited

namespace Labels

def empty : Labels := {}

def get? (ls : Labels) (l : Lookup) (id : String) : Option String :=
  (ls.tables.get? l.key).bind fun t => t.get? id

def contains (ls : Labels) (l : Lookup) (id : String) : Bool := (ls.get? l id).isSome

def insertMany (ls : Labels) (l : Lookup) (entries : List (String × String)) : Labels :=
  let old := (ls.tables.get? l.key).getD ∅
  ⟨ls.tables.insert l.key (entries.foldl (fun acc e => acc.insert e.1 e.2) old)⟩

/-- Loads the labels of the ids that have none yet, in ascending order and with one statement;
with no such id nothing is asked. -/
def prefetch (ls : Labels) (st : Storage) (l : Lookup) (ids : List String) : Action Labels := do
  let missing := (Ascending.texts ids).filter fun id => !ls.contains l id
  if missing.isEmpty then return ls
  else
    match l.check with
    | .error e => throw e
    | .ok () =>
      let s ← Session.draw ((l.query st.dialect missing).render st.dialect)
      let rows ← st.fetch s
      Session.log (.labelsLoaded l.table)
      return ls.insertMany l (rows.filterMap Lookup.entryOfRow)

end Labels

/-- The ids that a cell holds: the items of a list, the parts of a text between commas, or one
value. -/
def idsOf : Json → List String
  | .null => []
  | .array items => items.filterMap Json.cellText?
  | .string s =>
    ((Text.pieces ',' s.toList).map Text.trimChars).filterMap fun p =>
      if p.isEmpty then none else some (String.ofList p)
  | v => [v.text]

end Reports.Field
