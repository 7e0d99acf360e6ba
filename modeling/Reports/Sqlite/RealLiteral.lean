import Reports.Binary64.Basic
import Reports.Text.Numeral

/-! Real numbers in SQL text. They are read through numbers of 64 significant bits: the first
digits make a whole number, which is multiplied by powers of ten, rounded after each step, and
rounded once more at the end. The result may miss the nearest number of 53 bits by one. -/
namespace Reports.Sqlite

/-- A magnitude `mantissa * 2 ^ scale` of 64 significant bits. -/
structure Wide where
  mantissa : Nat
  scale : Int
  deriving Repr, DecidableEq

namespace Wide

/-- Rounds `m * 2 ^ e` to 64 significant bits. -/
def round (m : Nat) (e : Int) : Wide :=
  let extra := Nat.log2 m - 63
  ⟨Binary64.roundDiv m (Nat.pow 2 extra), e + extra⟩

def mul (x y : Wide) : Wide := round (x.mantissa * y.mantissa) (x.scale + y.scale)

def tenTo (n : Nat) : Wide := round (Nat.pow 10 n) 0

def tenthTo (n : Nat) : Wide :=
  let bits := Nat.log2 (Nat.pow 10 n) + 64
  ⟨Binary64.roundDiv (Nat.pow 2 bits) (Nat.pow 10 n), -bits⟩

def mulTimes (y : Wide) : Nat → Wide → Wide
  | 0, x => x
  | n + 1, x => mulTimes y n (x.mul y)

/-- Multiplies by the power `n` of ten or of a tenth, which `power` gives, in steps of a hundred,
ten and one. -/
def shift (power : Nat → Wide) (n : Nat) (x : Wide) : Wide :=
  mulTimes (power 1) (n % 10)
    (mulTimes (power 10) (n % 100 / 10) (mulTimes (power 100) (n / 100) x))

/-- The number of 64 bits. What exceeds the largest one is infinite, by however little. -/
def toBinary64 (negative : Bool) (x : Wide) : Binary64.Extended :=
  let (num, den) := match x.scale with
    | .ofNat e => (x.mantissa * Nat.pow 2 e * Binary64.one, 1)
    | .negSucc e => (x.mantissa * Binary64.one, Nat.pow 2 (e + 1))
  if Binary64.largest * den < num then .infinite negative
  else Binary64.ofRatio negative num den

end Wide

structure Significand where
  digits : Nat := 0
  exponent : Int := 0
  deriving Repr, DecidableEq

namespace Significand

def full : Nat := (maxUInt64 - 9) / 10

def whole (s : Significand) (c : Char) : Significand :=
  if s.digits < full then { s with digits := 10 * s.digits + Text.digitValue c }
  else { s with exponent := s.exponent + 1 }

def fraction (s : Significand) (c : Char) : Significand :=
  if s.digits < full then ⟨10 * s.digits + Text.digitValue c, s.exponent - 1⟩ else s

/-- Brings the exponent towards zero while the digits stay a whole number of 64 bits; `fuel`
bounds the steps. -/
def settle : Nat → Significand → Significand
  | 0, s => s
  | fuel + 1, s =>
    if 0 < s.exponent ∧ s.digits < maxUInt64 / 10 then
      settle fuel ⟨s.digits * 10, s.exponent - 1⟩
    else if s.exponent < 0 ∧ s.digits % 10 = 0 then
      settle fuel ⟨s.digits / 10, s.exponent + 1⟩
    else s

def toBinary64 (negative : Bool) (s : Significand) : Binary64.Extended :=
  if s.digits = 0 then .finite (Binary64.zero negative)
  else
    let s := settle 20 s
    let x : Wide := ⟨s.digits, 0⟩
    (match s.exponent with
      | .ofNat n => x.shift Wide.tenTo n
      | .negSucc n => x.shift Wide.tenthTo (n + 1)).toBinary64 negative

end Significand

structure RealLiteral where
  whole : List Char
  fraction : List Char
  exponent : Int
  deriving Repr, DecidableEq

namespace RealLiteral

/-- Drops the low lines that part groups of digits; elsewhere there is none. -/
def ungroup? : List Char → Option (List Char)
  | [] => some []
  | '_' :: _ => none
  | c :: '_' :: d :: rest =>
    if Text.isDigit c && Text.isDigit d then (ungroup? (d :: rest)).map (c :: ·) else none
  | c :: rest => (ungroup? rest).map (c :: ·)

/-- The digits of an exponent; from five digits on all are as good as endless. -/
def exponentValue (ds : List Char) : Nat :=
  ds.foldl (fun n c => if n < 10000 then 10 * n + Text.digitValue c else 10000) 0

def exponent? (cs : List Char) : Option Int :=
  let (sign, ds) : Int × List Char := match cs with
    | '-' :: ds => (-1, ds)
    | '+' :: ds => (1, ds)
    | ds => (1, ds)
  if ds.isEmpty || !ds.all Text.isDigit then none else some (sign * exponentValue ds)

/-- Reads digits with an optional point and exponent; there is a digit before the exponent. -/
def read? (cs : List Char) : Option RealLiteral :=
  let whole := cs.takeWhile Text.isDigit
  let rest := cs.dropWhile Text.isDigit
  let (fraction, rest) := match rest with
    | '.' :: rest => (rest.takeWhile Text.isDigit, rest.dropWhile Text.isDigit)
    | _ => ([], rest)
  if whole.isEmpty && fraction.isEmpty then none
  else match rest with
    | [] => some ⟨whole, fraction, 0⟩
    | c :: rest =>
      if c = 'e' ∨ c = 'E' then (exponent? rest).map fun e => ⟨whole, fraction, e⟩ else none

def toBinary64 (negative : Bool) (r : RealLiteral) : Binary64.Extended :=
  let s := r.fraction.foldl Significand.fraction (r.whole.foldl Significand.whole {})
  { s with exponent := s.exponent + r.exponent }.toBinary64 negative

end RealLiteral

end Reports.Sqlite
