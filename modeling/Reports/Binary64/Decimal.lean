import Reports.Binary64.Basic
import Reports.Text.Basic

/-! Decimal digits of binary numbers: the fewest that read back, a fixed number of places, and
reading. -/
namespace Reports.Binary64

structure Digits where
  digits : Nat
  exponent : Int
  deriving Repr, DecidableEq

def Digits.strip : Nat → Digits → Digits
  | 0, d => d
  | fuel + 1, d =>
    if d.digits ≠ 0 ∧ d.digits % 10 = 0 then
      strip fuel ⟨d.digits / 10, d.exponent + 1⟩ else d

def digitCount (n : Nat) : Nat := (Nat.toDigits 10 n).length

/-- The place of the first decimal digit of a positive magnitude: it lies between
`10 ^ leading` and `10 ^ (leading + 1)`. -/
def leading (u : Nat) : Int := (digitCount (u * Nat.pow 10 400 / one) : Int) - 401

def readsAs (u : Nat) (d : Digits) : Bool :=
  match ofDecimal false d.digits d.exponent with
  | .finite y => y.units == u
  | _ => false

/-- The two neighbours of a magnitude among the multiples of `10 ^ e`, the nearer one first;
at equal distance the even one. -/
def neighbours (u : Nat) (e : Int) : Digits × Digits :=
  let (num, den) := match e with
    | .ofNat k => (u, one * Nat.pow 10 k)
    | .negSucc k => (u * Nat.pow 10 (k + 1), one)
  let low := num / den
  if roundDiv num den = low then (⟨low, e⟩, ⟨low + 1, e⟩)
  else (⟨low + 1, e⟩, ⟨low, e⟩)

/-- The first candidate that reads back: two are tried for `count`, then two for the next, up to
`fuel` times. -/
def firstReading (reads : Digits → Bool) (candidates : Nat → Digits × Digits)
    (otherwise : Digits) :
    Nat → Nat → Digits
  | 0, _ => otherwise
  | fuel + 1, count =>
    let (near, far) := candidates count
    if reads near then near
    else if reads far then far
    else firstReading reads candidates otherwise fuel (count + 1)

def expansion (u : Nat) : Digits := ⟨u * Nat.pow 5 1074, -1074⟩

/-- Tries `count` significant digits, then one more, up to `fuel` times. When none reads back
the exact expansion stands. -/
def shortestFrom (u fuel count : Nat) : Digits :=
  firstReading (readsAs u) (fun count => neighbours u (leading u - count + 1))
    (expansion u) fuel count

/-- The fewest decimal digits that read back as the magnitude of `x`, the nearest to it among
those. Seventeen always suffice. -/
def shortest (x : Binary64) : Digits :=
  if x.units = 0 then ⟨0, 0⟩ else (shortestFrom x.units 17 1).strip 400

/-- `places` digits after the point, the exact value rounded, ties to even. -/
def fixedMagnitude (u places : Nat) : String :=
  let ds := Nat.toDigits 10 (roundDiv (u * Nat.pow 10 places) one)
  let padded := List.replicate (places + 1 - ds.length) '0' ++ ds
  let whole := padded.take (padded.length - places)
  if places = 0 then String.ofList whole
  else String.ofList (whole ++ '.' :: padded.drop (padded.length - places))

def Extended.fixed (places : Nat) : Extended → String
  | .nan => "NaN"
  | .infinite true => "-inf"
  | .infinite false => "inf"
  | .finite x => (if x.negative then "-" else "") ++ fixedMagnitude x.units places

/-- The value of decimal digits with a power of ten of any size: beyond four hundred places
from the digits the result is infinite or zero. -/
def ofDigits (negative : Bool) (ds : List Char) (exponent : Int) : Extended :=
  let n := ds.foldl (fun acc c => 10 * acc + (c.toNat - '0'.toNat)) 0
  if n = 0 then .finite (zero negative)
  else if 400 < exponent then .infinite negative
  else if exponent < -400 - (ds.length : Int) then .finite (zero negative)
  else ofDecimal negative n exponent

def readExponent (cs : List Char) : Option Int :=
  let (negative, ds) := match cs with
    | '-' :: rest => (true, rest)
    | '+' :: rest => (false, rest)
    | _ => (false, cs)
  if ds.isEmpty || !ds.all Text.isDigit then none
  else
    let n : Nat := ds.foldl (fun acc c => 10 * acc + (c.toNat - '0'.toNat)) 0
    some (if negative then -(n : Int) else n)

/-- Digits with an optional point and exponent; at least one digit stands before the exponent. -/
def readMagnitude (negative : Bool) (cs : List Char) : Option Extended :=
  let whole := cs.takeWhile Text.isDigit
  let rest := cs.dropWhile Text.isDigit
  let (fraction, rest) := match rest with
    | '.' :: rest => (rest.takeWhile Text.isDigit, rest.dropWhile Text.isDigit)
    | _ => ([], rest)
  if whole.isEmpty && fraction.isEmpty then none
  else
    let exponent := match rest with
      | [] => some 0
      | c :: rest => if c = 'e' ∨ c = 'E' then readExponent rest else none
    exponent.map fun e => ofDigits negative (whole ++ fraction) (e - fraction.length)

/-- Reads a number: decimal notation, or an infinity or `nan` in any case, with an optional
sign. -/
def read (s : String) : Option Extended :=
  let (negative, cs) := match s.toList with
    | '-' :: rest => (true, rest)
    | '+' :: rest => (false, rest)
    | cs => (false, cs)
  let word := String.ofList (cs.map Text.lowerChar)
  if word = "inf" ∨ word = "infinity" then some (.infinite negative)
  else if word = "nan" then some .nan
  else readMagnitude negative cs

end Reports.Binary64
