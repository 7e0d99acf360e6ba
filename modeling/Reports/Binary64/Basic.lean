import Reports.Text.Numeral

/-! Binary floating-point numbers of 64 bits, as exact multiples of the smallest positive one.
A magnitude counts units of 2^-1074; it is representable when it is a multiple of the spacing
at its size and below 2^1024. All arithmetic is exact arithmetic on naturals followed by one
rounding to the nearest representable magnitude, ties to even. -/
namespace Reports

namespace Binary64

/-- Distance of neighbouring magnitudes at magnitude `u`: 53 significant bits. -/
def spacing (u : Nat) : Nat := Nat.pow 2 (Nat.log2 u - 52)

def limit : Nat := Nat.pow 2 2098

def largest : Nat := limit - Nat.pow 2 2045

def one : Nat := Nat.pow 2 1074

def Representable (u : Nat) : Prop := spacing u ∣ u ∧ u < limit

instance (u : Nat) : Decidable (Representable u) := by unfold Representable; infer_instance

theorem representable_zero : Representable 0 := by decide +kernel

end Binary64

/-- A finite number of 64 bits; zero has a sign. -/
structure Binary64 where
  negative : Bool
  units : Nat
  representable : Binary64.Representable units
  deriving Repr, DecidableEq

namespace Binary64

inductive Extended
  | finite (x : Binary64)
  | infinite (negative : Bool)
  | nan
  deriving Repr, DecidableEq

def zero (negative : Bool) : Binary64 := ⟨negative, 0, representable_zero⟩

instance : Inhabited Binary64 := ⟨zero false⟩

/-- The natural nearest to `num / den`; of two equally near, the even one. -/
def roundDiv (num den : Nat) : Nat :=
  let q := num / den
  let r := num % den
  if 2 * r < den then q
  else if den < 2 * r then q + 1
  else if q % 2 = 0 then q else q + 1

def nearest (num den : Nat) : Nat :=
  let step := spacing (num / den)
  roundDiv num (den * step) * step

def ofRatio (negative : Bool) (num den : Nat) : Extended :=
  let u := nearest num den
  if h : Representable u then .finite ⟨negative, u, h⟩ else .infinite negative

def ofDecimal (negative : Bool) (digits : Nat) (exponent : Int) : Extended :=
  match exponent with
  | .ofNat e => ofRatio negative (digits * Nat.pow 10 e * one) 1
  | .negSucc e => ofRatio negative (digits * one) (Nat.pow 10 (e + 1))

def ofNat (negative : Bool) (n : Nat) : Extended := ofRatio negative (n * one) 1

def ofInt (n : Int) : Extended := ofNat (decide (n < 0)) n.natAbs

def isZero (x : Binary64) : Bool := x.units == 0

def same (x y : Binary64) : Bool :=
  x.units == y.units && (x.negative == y.negative || x.units == 0)

def truncate (x : Binary64) : Nat := x.units / one

namespace Extended

def negative : Extended → Bool
  | finite x => x.negative
  | infinite s => s
  | nan => false

def isZero : Extended → Bool
  | finite x => x.isZero
  | _ => false

def mul : Extended → Extended → Extended
  | nan, _ | _, nan => nan
  | finite x, finite y => ofRatio (x.negative != y.negative) (x.units * y.units) one
  | infinite s, y => if y.isZero then nan else infinite (s != y.negative)
  | x, infinite s => if x.isZero then nan else infinite (s != x.negative)

def div : Extended → Extended → Extended
  | nan, _ | _, nan => nan
  | infinite _, infinite _ => nan
  | infinite s, finite y => infinite (s != y.negative)
  | finite x, infinite s => finite (zero (x.negative != s))
  | finite x, finite y =>
    if y.isZero then if x.isZero then nan else infinite (x.negative != y.negative)
    else ofRatio (x.negative != y.negative) (x.units * one) y.units

/-- Drops the fraction and keeps the result within signed 64 bits; no number becomes 0. -/
def toInt64 : Extended → Int
  | nan => 0
  | infinite true => minInt64
  | infinite false => maxInt64
  | finite x =>
    if x.negative then max (-(x.truncate : Int)) minInt64 else min (x.truncate : Int) maxInt64

def toUInt64 : Extended → UInt64
  | nan | infinite true => 0
  | infinite false => UInt64.ofNat maxUInt64
  | finite x => if x.negative then 0 else UInt64.ofNat (min x.truncate maxUInt64)

end Extended

end Binary64

end Reports
