import Reports.Text.Basic

/-! Escapes that work character by character, and reading the hexadecimal ones. -/
namespace Reports.Text

def mapChars (f : Char → List Char) (s : String) : String := String.ofList (s.toList.flatMap f)

/-- Writes `q` twice, all else once. -/
def doubling (q : Char) (c : Char) : List Char := if c = q then [q, q] else [c]

/-- Encloses a text in `q` and doubles the `q` inside it. -/
def quoted (q : Char) (s : String) : String :=
  String.ofList (q :: (s.toList.flatMap (doubling q) ++ [q]))

/-- The escape of one character in HTML text and attribute values. -/
def markupChar (c : Char) : List Char :=
  match c with
  | '<' => "&lt;".toList
  | '>' => "&gt;".toList
  | '\x22' => "&quot;".toList
  | '\x27' => "&apos;".toList
  | '&' => "&amp;".toList
  | '\x60' => "&grave;".toList
  | '/' => "&#47;".toList
  | '=' => "&#61;".toList
  | ' ' => "&#32;".toList
  | '\t' => "&#9;".toList
  | '\n' => "&#10;".toList
  | '\x0c' => "&#12;".toList
  | '\r' => "&#13;".toList
  | '\x00' => "&#65533;".toList
  | _ => [c]

/-- Text that stays text wherever HTML puts it. -/
def escapeMarkup (s : String) : String := mapChars markupChar s

def isUnreserved (b : UInt8) : Bool :=
  (0x30 ≤ b && b ≤ 0x39) || (0x41 ≤ b && b ≤ 0x5A) || (0x61 ≤ b && b ≤ 0x7A) ||
  b == 0x2D || b == 0x2E || b == 0x5F || b == 0x7E

def hexDigit (n : Nat) : Char := Char.ofNat (if n < 10 then 48 + n else 55 + n)

def lowerHexDigit (n : Nat) : Char := Char.ofNat (if n < 10 then 48 + n else 87 + n)

def percentByte (b : UInt8) : List Char :=
  if isUnreserved b then [Char.ofNat b.toNat]
  else ['%', hexDigit (b.toNat / 16), hexDigit (b.toNat % 16)]

def percentEncode (s : String) : String :=
  String.ofList (s.toUTF8.toList.flatMap percentByte)

def hex (bytes : List UInt8) : String :=
  String.ofList
    (bytes.flatMap fun b => [lowerHexDigit (b.toNat / 16), lowerHexDigit (b.toNat % 16)])

def readHex : List Char → Option (List UInt8)
  | [] => some []
  | [_] => none
  | c :: d :: rest => do
    let c ← hexValue? c
    let d ← hexValue? d
    return UInt8.ofNat (16 * c + d) :: (← readHex rest)

/-- The bytes that percent encoding stands for. A percent sign without two hexadecimal digits
after it stands for itself. -/
def percentBytes : List Char → List UInt8
  | [] => []
  | '%' :: c :: d :: rest =>
    match hexValue? c, hexValue? d with
    | some c, some d => UInt8.ofNat (16 * c + d) :: percentBytes rest
    | _, _ => 0x25 :: percentBytes (c :: d :: rest)
  | c :: rest => (String.ofList [c]).toUTF8.toList ++ percentBytes rest

/-- The text that was percent-encoded; none when the bytes are no text. -/
def percentDecode (s : String) : Option String :=
  String.fromUTF8? (ByteArray.mk (percentBytes s.toList).toArray)

end Reports.Text
