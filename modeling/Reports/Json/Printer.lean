import Reports.Json.Basic
import Reports.Binary64.Decimal
import Reports.Text.Escape

/-! The text of JSON values: compact, without blanks, or indented. -/
namespace Reports

/-- How floating-point numbers are written: positional notation while the point stands within
`positionalFrom` and `positionalTo` of the first digit, else one digit before the point and an
exponent with a sign. -/
structure FloatStyle where
  positionalFrom : Int
  positionalTo : Int
  wholeSuffix : String
  deriving Repr, DecidableEq

namespace Number

/-- Positional from 0.00001 up to below 10^16; whole numbers end in `.0`. -/
def style : FloatStyle := ⟨-4, 16, ".0"⟩

def layout (s : FloatStyle) (ds : List Char) (point : Int) : String :=
  if s.positionalFrom ≤ point ∧ point ≤ 0 then
    String.ofList ("0.".toList ++ List.replicate (-point).toNat '0' ++ ds)
  else if 0 < point ∧ point ≤ s.positionalTo then
    let p := point.toNat
    if ds.length ≤ p then
      String.ofList (ds ++ List.replicate (p - ds.length) '0') ++ s.wholeSuffix
    else String.ofList (ds.take p ++ '.' :: ds.drop p)
  else
    let mantissa := match ds with
      | [] => []
      | [d] => [d]
      | d :: rest => d :: '.' :: rest
    let e := point - 1
    String.ofList mantissa ++ "e" ++ (if 0 ≤ e then "+" else "") ++ Text.signedDecimal e

def floatText (x : Binary64) : String :=
  let sign := if x.negative then "-" else ""
  if x.isZero then sign ++ "0.0"
  else
    let d := x.shortest
    let ds := Nat.toDigits 10 d.digits
    sign ++ layout style ds (ds.length + d.exponent)

def text : Number → String
  | int n => Text.signedDecimal n
  | float x => floatText x

end Number

namespace Json

def escapeChar (c : Char) : List Char :=
  match c with
  | '\x22' => ['\\', '\x22']
  | '\\' => ['\\', '\\']
  | '\x08' => ['\\', 'b']
  | '\t' => ['\\', 't']
  | '\n' => ['\\', 'n']
  | '\x0c' => ['\\', 'f']
  | '\r' => ['\\', 'r']
  | _ =>
    if c.toNat < 32 then
      ['\\', 'u', '0', '0', Text.lowerHexDigit (c.toNat / 16), Text.lowerHexDigit (c.toNat % 16)]
    else [c]

def quote (s : String) : String :=
  String.ofList ('\x22' :: (s.toList.flatMap escapeChar ++ ['\x22']))

mutual

def text : Json → String
  | null => "null"
  | bool true => "true"
  | bool false => "false"
  | number n => n.text
  | string s => quote s
  | array xs => "[" ++ itemsText xs ++ "]"
  | object ms => "\x7b" ++ membersText ms ++ "\x7d"

def itemsText : List Json → String
  | [] => ""
  | [x] => x.text
  | x :: y :: rest => x.text ++ "," ++ itemsText (y :: rest)

def membersText : List (String × Json) → String
  | [] => ""
  | [(k, x)] => quote k ++ ":" ++ x.text
  | (k, x) :: m :: rest => quote k ++ ":" ++ x.text ++ "," ++ membersText (m :: rest)

end

/-- A string itself; of any other value the compact text. -/
def plain : Json → String
  | string s => s
  | v => v.text

/-- As `plain`, and nothing for null. -/
def cellText : Json → String
  | null => ""
  | v => v.plain

def cellText? : Json → Option String
  | null => none
  | v => some v.plain

def indent (depth : Nat) : String := String.ofList (List.replicate (2 * depth) ' ')

mutual

def pretty (depth : Nat) : Json → String
  | array [] => "[]"
  | object [] => "\x7b\x7d"
  | array (x :: xs) => "[\n" ++ prettyItems (depth + 1) (x :: xs) ++ "\n" ++ indent depth ++ "]"
  | object (m :: ms) =>
    "\x7b\n" ++ prettyMembers (depth + 1) (m :: ms) ++ "\n" ++ indent depth ++ "\x7d"
  | null => "null"
  | bool b => text (.bool b)
  | number n => n.text
  | string s => quote s

def prettyItems (depth : Nat) : List Json → String
  | [] => ""
  | [x] => indent depth ++ pretty depth x
  | x :: y :: rest => indent depth ++ pretty depth x ++ ",\n" ++ prettyItems depth (y :: rest)

def prettyMembers (depth : Nat) : List (String × Json) → String
  | [] => ""
  | [(k, x)] => indent depth ++ quote k ++ ": " ++ pretty depth x
  | (k, x) :: m :: rest =>
    indent depth ++ quote k ++ ": " ++ pretty depth x ++ ",\n" ++ prettyMembers depth (m :: rest)

end

end Json

end Reports
