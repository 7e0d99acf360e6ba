import Reports.Binary64.Basic
import Reports.OrderedMap
import Reports.Text.Numeral

/-! Values of the JSON data model. Whole numbers and floating-point numbers stay apart: `1` and
`1.0` are different values. Objects keep the order of their members. -/
namespace Reports

inductive Number
  | int (value : Int)
  | float (value : Binary64)
  deriving Repr, DecidableEq

inductive Json
  | null
  | bool (value : Bool)
  | number (value : Number)
  | string (value : String)
  | array (items : List Json)
  | object (members : List (String × Json))
  deriving Repr, Inhabited

namespace Number

/-- Equality of numbers of one kind; both floating-point zeros are equal. -/
def same : Number → Number → Bool
  | int a, int b => a == b
  | float a, float b => a.same b
  | _, _ => false

def toExtended : Number → Binary64.Extended
  | int n => Binary64.ofInt n
  | float x => .finite x

end Number

namespace Json

def ofInt (n : Int) : Json := .number (.int n)

def ofNat (n : Nat) : Json := .number (.int n)

def ofMap (m : OrderedMap String Json) : Json := .object m.entries

def asString? : Json → Option String
  | string s => some s
  | _ => none

mutual

/-- Equality of values: objects are equal when they have the same members in any order. -/
def same : Json → Json → Bool
  | null, null => true
  | bool a, bool b => a == b
  | number a, number b => a.same b
  | string a, string b => a == b
  | array xs, array ys => sameItems xs ys
  | object ms, object ns => ms.length == ns.length && sameMembers ms ns
  | _, _ => false

def sameItems : List Json → List Json → Bool
  | [], [] => true
  | x :: xs, y :: ys => x.same y && sameItems xs ys
  | _, _ => false

def sameMembers : List (String × Json) → List (String × Json) → Bool
  | [], _ => true
  | (k, x) :: ms, ns =>
    (match OrderedMap.lookup k ns with
      | some y => x.same y
      | none => false) && sameMembers ms ns

end

end Json

/-- Named values: the parameters of a statement, or the cells of a row. -/
abbrev Params := OrderedMap String Json

/-- One row: column name to value, in select order. -/
abbrev Row := OrderedMap String Json

end Reports
