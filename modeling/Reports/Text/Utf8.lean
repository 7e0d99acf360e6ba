import Reports.Text.Escape

/-! Texts from bytes in UTF-8. Bytes that are no character are replaced by one sign: of a character
that breaks off, all the bytes together. -/
namespace Reports.Text

/-- A character whose first bytes have been read: how many are missing, the bits so far, and the
range of the next byte. -/
structure Unfinished where
  missing : Nat
  bits : Nat
  low : UInt8 := 0x80
  high : UInt8 := 0xBF
  deriving Repr, DecidableEq

namespace Unfinished

/-- The character that a first byte opens. The ranges leave out surrogates, numbers beyond the last
character, and longer forms than needed. -/
def ofFirst? (b : UInt8) : Option Unfinished :=
  if 0xC2 ≤ b ∧ b ≤ 0xDF then some { missing := 1, bits := b.toNat - 0xC0 }
  else if b = 0xE0 then some { missing := 2, bits := 0, low := 0xA0 }
  else if b = 0xED then some { missing := 2, bits := 13, high := 0x9F }
  else if 0xE1 ≤ b ∧ b ≤ 0xEF then some { missing := 2, bits := b.toNat - 0xE0 }
  else if b = 0xF0 then some { missing := 3, bits := 0, low := 0x90 }
  else if b = 0xF4 then some { missing := 3, bits := 4, high := 0x8F }
  else if 0xF1 ≤ b ∧ b ≤ 0xF3 then some { missing := 3, bits := b.toNat - 0xF0 }
  else none

end Unfinished

def replacement : Char := '\uFFFD'

def firstByte (b : UInt8) : List Char × Option Unfinished :=
  if b < 0x80 then ([Char.ofNat b.toNat], none)
  else match Unfinished.ofFirst? b with
    | some u => ([], some u)
    | none => ([replacement], none)

def nextByte (state : Option Unfinished) (b : UInt8) : List Char × Option Unfinished :=
  match state with
  | none => firstByte b
  | some u =>
    if u.low ≤ b ∧ b ≤ u.high then
      let bits := 64 * u.bits + (b.toNat - 0x80)
      if u.missing ≤ 1 then ([Char.ofNat bits], none)
      else ([], some { missing := u.missing - 1, bits })
    else (replacement :: (firstByte b).1, (firstByte b).2)

def charsFrom (state : Option Unfinished) : List UInt8 → List Char
  | [] => if state.isSome then [replacement] else []
  | b :: rest => (nextByte state b).1 ++ charsFrom (nextByte state b).2 rest

def ofBytes (bytes : List UInt8) : String := String.ofList (charsFrom none bytes)

/-- The text that was percent-encoded, whatever the bytes. -/
def percentText (s : String) : String := ofBytes (percentBytes s.toList)

end Reports.Text
