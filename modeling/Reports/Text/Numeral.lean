import Reports.Text.Basic

/-! Ranges of machine words, and whole numbers written in decimal. -/
namespace Reports

abbrev maxUInt31 : Nat := 2147483647

abbrev maxUInt32 : Nat := 4294967295

abbrev maxUInt64 : Nat := 18446744073709551615

abbrev minInt64 : Int := -9223372036854775808

abbrev maxInt64 : Int := 9223372036854775807

def fitsInt64 (n : Int) : Bool := minInt64 ≤ n && n ≤ maxInt64

def fitsUInt64 (n : Int) : Bool := 0 ≤ n && n ≤ maxUInt64

namespace Text

inductive NumeralError
  | empty
  | invalidDigit
  | tooLarge
  | tooSmall
  deriving Repr, DecidableEq

namespace NumeralError

def message : NumeralError → String
  | empty => "cannot parse integer from empty string"
  | invalidDigit => "invalid digit found in string"
  | tooLarge => "number too large to fit in target type"
  | tooSmall => "number too small to fit in target type"

end NumeralError

def digitValue (c : Char) : Nat := c.toNat - '0'.toNat

def digitsValue (cs : List Char) : Nat := cs.foldl (fun n c => 10 * n + digitValue c) 0

/-- Digits only, at least one, at most `limit`. A wrong character is reported only when it
comes before the point at which the digits read so far exceed the limit. -/
def boundedDigits (limit : Nat) (acc : Nat) : List Char → Except NumeralError Nat
  | [] => .ok acc
  | c :: rest =>
    if !isDigit c then .error .invalidDigit
    else
      let n := 10 * acc + digitValue c
      if limit < n then .error .tooLarge else boundedDigits limit n rest

def readUnsigned (limit : Nat) (s : String) : Except NumeralError Nat :=
  match s.toList with
  | [] => .error .empty
  | ['+'] => .error .invalidDigit
  | '+' :: rest => boundedDigits limit 0 rest
  | cs => boundedDigits limit 0 cs

/-- Reads an optional sign and digits, within `-limit - 1` and `limit`. -/
def readSigned (limit : Nat) (s : String) : Except NumeralError Int :=
  match s.toList with
  | [] => .error .empty
  | ['+'] | ['-'] => .error .invalidDigit
  | '+' :: rest => (boundedDigits limit 0 rest).map Int.ofNat
  | '-' :: rest =>
    match boundedDigits (limit + 1) 0 rest with
    | .ok n => .ok (-(n : Int))
    | .error .tooLarge => .error .tooSmall
    | .error e => .error e
  | cs => (boundedDigits limit 0 cs).map Int.ofNat

def readUInt32 (s : String) : Except NumeralError UInt32 :=
  (readUnsigned maxUInt32 s).map UInt32.ofNat

def readUInt64 (s : String) : Except NumeralError UInt64 :=
  (readUnsigned maxUInt64 s).map UInt64.ofNat

def readInt64 (s : String) : Except NumeralError Int := readSigned maxInt64.toNat s

end Text

end Reports
