import Reports.Sqlite.Value
import Reports.Session

/-! A database without tables: it answers selections of constants. -/
namespace Reports.Sqlite

/-- The database's own words for a table that is not there. What begins with a digit is no name at
all. -/
def noSuchTable (table : String) : String :=
  "error returned from database: (code: 1) " ++
    if (table.toList.head?.map Text.isDigit).getD false then
      "unrecognized token: \"" ++ table ++ "\""
    else "no such table: " ++ table

inductive Cell
  | value (value : Value)
  | parameter (name : String)
  deriving Repr

inductive Selection
  | constants (names : List String) (rows : List (List Cell))
  | table (name : String)
  deriving Repr

namespace Cell

def eval (params : Params) : Cell → Except Error Json
  | value v => .ok v.toJson
  | parameter name =>
    match params.get? name with
    | some v => .ok (Value.ofJson v).toJson
    | none => .error (.configuration (.unboundParameter name))

end Cell

namespace Selection

def evalCells (params : Params) : List Cell → Except Error (List Json)
  | [] => .ok []
  | c :: rest => do
    let v ← c.eval params
    let vs ← evalCells params rest
    return v :: vs

/-- The rows in order. Of columns with one name, the last one's value stands at the first one's
place. The first parameter without a value is an error. -/
def evalRows (params : Params) (names : List String) : List (List Cell) → Except Error (List Row)
  | [] => .ok []
  | cells :: rest => do
    let vs ← evalCells params cells
    let rows ← evalRows params names rest
    return OrderedMap.ofList (names.zip vs) :: rows

def run (params : Params) : Selection → Except Error (List Row)
  | constants names rows => evalRows params names rows
  | table name => .error (.execution (noSuchTable name) ("SELECT * FROM " ++ name) params)

end Selection

end Reports.Sqlite
