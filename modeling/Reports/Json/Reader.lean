import Reports.Json.Basic
import Reports.Json.Syntax
import Reports.Binary64.Decimal
import Reports.Text.Numeral

/-! Values from JSON text. Nesting is bounded, and a repeated key keeps its first place and its last
value. An object may stand for the value of a text embedded in it. Decimals are read by a short
algorithm: the first digits that fit 64 bits, scaled by a power of ten, each step rounded; long
decimals may come out one unit off the nearest. -/
namespace Reports

namespace Number

/-- Appends digits to a number while it fits 64 bits. Gives the number and the digits left. -/
def gather (acc : Nat) : List Char → Nat × List Char
  | [] => (acc, [])
  | c :: rest =>
    let n := 10 * acc + (c.toNat - '0'.toNat)
    if maxUInt64 < n then (acc, c :: rest) else gather n rest

def powerOfTen (n : Nat) : Binary64.Extended := Binary64.ofDecimal false 1 n

/-- Scales by a power of ten, in steps when the power itself is out of range. None when the
result is. -/
def scale : Nat → Binary64.Extended → Int → Option Binary64
  | 0, _, _ => none
  | fuel + 1, f, e =>
    if e.natAbs ≤ 308 then
      match if 0 ≤ e then f.mul (powerOfTen e.natAbs) else f.div (powerOfTen e.natAbs) with
      | .finite x => some x
      | _ => none
    else if f.isZero then
      match f with
      | .finite x => some x
      | _ => none
    else if 0 ≤ e then none
    else scale fuel (f.div (powerOfTen 308)) (e + 308)

def ofParts (negative : Bool) (significand : Nat) (e : Int) : Option Number :=
  (scale 4 (Binary64.ofNat negative significand) e).map .float

/-- The exponent as it is written, as far as 31 bits hold it. -/
def exponentValue (ds : List Char) : Option Nat :=
  let n := ds.foldl (fun acc c => 10 * acc + (c.toNat - '0'.toNat)) 0
  if n ≤ maxUInt31 then some n else none

/-- The number a literal stands for. Whole numbers of 64 bits stay whole, but for `-0`. -/
def ofLiteral (l : Json.Literal) : Option Number :=
  let (significand, left) := gather 0 l.whole
  if left.isEmpty && l.fraction.isEmpty && l.exponent.isNone then
    if !l.negative then some (.int significand)
    else if significand ≠ 0 ∧ minInt64 ≤ -(significand : Int) then
      some (.int (-(significand : Int)))
    else ofParts true significand 0
  else
    let (significand, dropped) := gather significand l.fraction
    let start : Int := (left.length : Int) - ((l.fraction.length : Int) - dropped.length)
    match l.exponent with
    | none => ofParts l.negative significand start
    | some (negativeExponent, ds) =>
      match exponentValue ds with
      | some e => ofParts l.negative significand (if negativeExponent then start - e else start + e)
      | none =>
        if significand ≠ 0 ∧ !negativeExponent then none
        else some (.float (Binary64.zero l.negative))

end Number

namespace Json

/-- Levels of arrays and objects that a text may nest, and one more. -/
def depthLimit : Nat := 128

def embeddedKey : String := "$serde_json::private::RawValue"

namespace Tree

/-- Whether an object with these members holds a text in place of a value: its first key decides. -/
def embeds : List (Option String × Tree) → Bool
  | (some k, _) :: _ => k == embeddedKey
  | _ => false

def embeddedText? : List (Option String × Tree) → Option String
  | [(_, string s)] => s
  | _ => none

section

variable (embedded : String → Option Json)

mutual

/-- The value of a tree that nests fewer than `depth` levels. What an embedded text stands for is
given by `embedded`. -/
def toJson (depth : Nat) : Tree → Option Json
  | null => some .null
  | bool b => some (.bool b)
  | number l => (Number.ofLiteral l).map .number
  | string s => s.map .string
  | array ts => if depth ≤ 1 then none else (toItems (depth - 1) ts).map .array
  | object ms =>
    if depth ≤ 1 then none
    else if embeds ms then (embeddedText? ms).bind embedded
    else (toMembers (depth - 1) ms OrderedMap.empty).map fun m => .object m.entries

def toItems (depth : Nat) : List Tree → Option (List Json)
  | [] => some []
  | t :: ts => do
    let v ← t.toJson depth
    let vs ← toItems depth ts
    return v :: vs

def toMembers (depth : Nat) : List (Option String × Tree) → OrderedMap String Json →
    Option (OrderedMap String Json)
  | [], acc => some acc
  | (k, t) :: ms, acc => do
    let k ← k
    let v ← t.toJson depth
    toMembers depth ms (acc.insert k v)

end

end

/-- The members that stand for the named fields of a record. An object may hold other keys but
each field once; an array holds the first fields in order. -/
def fields (names : List String) : Tree → Option (OrderedMap String Tree)
  | object ms => go ms OrderedMap.empty
  | array ts => if ts.length ≤ names.length then some ⟨names.zip ts⟩ else none
  | _ => none
where
  go : List (Option String × Tree) → OrderedMap String Tree → Option (OrderedMap String Tree)
    | [], acc => some acc
    | (none, _) :: _, _ => none
    | (some k, t) :: ms, acc =>
      if k ∉ names then go ms acc
      else if acc.contains k then none
      else go ms (acc.insert k t)

def name : Tree → Option String
  | string s => s
  | object [(k, null)] => k
  | _ => none

def asBool : Tree → Option Bool
  | bool b => some b
  | _ => none

def asString : Tree → Option String
  | string s => s
  | _ => none

def asInt (low high : Int) : Tree → Option Int
  | number l =>
    match Number.ofLiteral l with
    | some (.int n) => if low ≤ n ∧ n ≤ high then some n else none
    | _ => none
  | _ => none

def asOption {α : Type} (f : Tree → Option α) : Tree → Option (Option α)
  | null => some none
  | t => (f t).map some

/-- An object as a map; of a repeated key the last value counts. -/
def asMap {α : Type} (f : Tree → Option α) : Tree → Option (OrderedMap String α)
  | object ms => go ms OrderedMap.empty
  | _ => none
where
  go : List (Option String × Tree) → OrderedMap String α → Option (OrderedMap String α)
    | [], acc => some acc
    | (k, t) :: ms, acc => do
      let k ← k
      let v ← f t
      go ms (acc.insert k v)

end Tree

/-- The value of a text that embeds fewer than `fuel` texts within each other. Each of them may
nest as many levels as the text itself. -/
def readWithin : Nat → String → Option Json
  | 0, _ => none
  | fuel + 1, s => (Tree.read s).bind (Tree.toJson (readWithin fuel) depthLimit)

/-- The value of a text. An embedded text is shorter than the one around it, so its length bounds
how many there are. -/
def read (s : String) : Option Json := readWithin (s.length + 1) s

end Json

end Reports
