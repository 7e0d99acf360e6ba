import Reports.Json.Printer
import Reports.Sqlite.RealLiteral
import Reports.Text.Escape

/-! Values of SQLite by storage class, and how they and JSON values stand for each other. -/
namespace Reports.Sqlite

inductive Value
  | null
  | integer (n : Int)
  | real (x : Binary64.Extended)
  | text (s : String)
  | blob (bytes : List UInt8)
  deriving Repr

namespace Value

/-- A whole number; beyond 64 bits it is real. -/
def ofInt (n : Int) : Value :=
  if fitsInt64 n then integer n else real (Binary64.ofInt n)

/-- A number written in SQL: without point and exponent it is whole, unless it is too large. -/
def ofLiteral? (s : String) : Option Value := do
  let (negative, cs) := match s.toList with
    | '-' :: rest => (true, rest)
    | '+' :: rest => (false, rest)
    | cs => (false, cs)
  let cs ← RealLiteral.ungroup? cs
  let r ← RealLiteral.read? cs
  let n : Int := Text.digitsValue cs
  let n := if negative then -n else n
  return if cs.all Text.isDigit && fitsInt64 n then integer n else real (r.toBinary64 negative)

/-- The value bound for a JSON value: truth values are numbers, lists and objects their compact
text. -/
def ofJson : Json → Value
  | .null => null
  | .bool b => integer (if b then 1 else 0)
  | .number (.int n) => ofInt n
  | .number (.float x) => real (.finite x)
  | .string s => text s
  | v => text v.text

/-- What a value is read as: bytes as hexadecimal digits, and null for numbers without end. -/
def toJson : Value → Json
  | null => .null
  | integer n => .ofInt n
  | real (.finite x) => .number (.float x)
  | real _ => .null
  | text s => .string s
  | blob bytes => .string (Text.hex bytes)

end Value

end Reports.Sqlite
