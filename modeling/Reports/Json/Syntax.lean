import Reports.Text.Basic

/-! Syntax trees of JSON text. A tree keeps what a reader may still have to refuse: repeated
keys, numbers beyond every range, and strings whose escapes are no text. -/
namespace Reports.Json

/-- A number as it is written. The fraction and the exponent are empty when not written. -/
structure Literal where
  negative : Bool
  whole : List Char
  fraction : List Char
  exponent : Option (Bool × List Char)
  deriving Repr, DecidableEq

/-- Strings hold no text when an escape names half of a surrogate pair. -/
inductive Tree
  | null
  | bool (value : Bool)
  | number (value : Literal)
  | string (value : Option String)
  | array (items : List Tree)
  | object (members : List (Option String × Tree))
  deriving Repr, Inhabited

namespace Tree

def isSpace (c : Char) : Bool := c == ' ' || c == '\n' || c == '\t' || c == '\r'

def skip (cs : List Char) : List Char := cs.dropWhile isSpace

def unit? (a b c d : Char) : Option Nat := do
  let a ← Text.hexValue? a
  let b ← Text.hexValue? b
  let c ← Text.hexValue? c
  let d ← Text.hexValue? d
  return ((a * 16 + b) * 16 + c) * 16 + d

def escapeValue? (c : Char) : Option Nat :=
  match c with
  | '\x22' => some 0x22
  | '\\' => some 0x5C
  | '/' => some 0x2F
  | 'b' => some 8
  | 'f' => some 12
  | 'n' => some 10
  | 'r' => some 13
  | 't' => some 9
  | _ => none

/-- The code points of a string up to its closing quote, and the characters after it. Escaped
surrogates stay apart. -/
def points : List Char → Option (List Nat × List Char)
  | [] => none
  | '\x22' :: rest => some ([], rest)
  | '\\' :: 'u' :: a :: b :: c :: d :: rest => do
    let n ← unit? a b c d
    let (ns, rest) ← points rest
    return (n :: ns, rest)
  | '\\' :: c :: rest => do
    let n ← escapeValue? c
    let (ns, rest) ← points rest
    return (n :: ns, rest)
  | c :: rest =>
    if c = '\\' ∨ c.toNat < 32 then none
    else do
      let (ns, rest) ← points rest
      return (c.toNat :: ns, rest)

/-- Joins surrogate pairs; half of a pair on its own is no text. -/
def characters : List Nat → Option (List Char)
  | [] => some []
  | n :: rest =>
    if 0xD800 ≤ n ∧ n < 0xDC00 then
      match rest with
      | m :: rest =>
        if 0xDC00 ≤ m ∧ m < 0xE000 then
          (characters rest).map (Char.ofNat (0x10000 + (n - 0xD800) * 1024 + (m - 0xDC00)) :: ·)
        else none
      | [] => none
    else if 0xDC00 ≤ n ∧ n < 0xE000 then none
    else (characters rest).map (Char.ofNat n :: ·)

def stringBody (cs : List Char) : Option (Option String × List Char) := do
  let (ns, rest) ← points cs
  return ((characters ns).map String.ofList, rest)

def exponentPart (cs : List Char) : Option ((Bool × List Char) × List Char) :=
  let (negative, cs) := match cs with
    | '-' :: rest => (true, rest)
    | '+' :: rest => (false, rest)
    | _ => (false, cs)
  let ds := cs.takeWhile Text.isDigit
  if ds.isEmpty then none else some ((negative, ds), cs.dropWhile Text.isDigit)

/-- A number after its sign: no needless leading zero, a digit on each side of a point. -/
def numberBody (negative : Bool) (cs : List Char) : Option (Literal × List Char) := do
  let whole := cs.takeWhile Text.isDigit
  let rest := cs.dropWhile Text.isDigit
  match whole with
  | [] => none
  | '0' :: _ :: _ => none
  | _ => pure ()
  let (fraction, rest) ← match rest with
    | '.' :: rest =>
      let ds := rest.takeWhile Text.isDigit
      if ds.isEmpty then none else some (ds, rest.dropWhile Text.isDigit)
    | _ => some ([], rest)
  match rest with
  | c :: tail =>
    if c = 'e' ∨ c = 'E' then
      let (e, rest) ← exponentPart tail
      return (⟨negative, whole, fraction, some e⟩, rest)
    else return (⟨negative, whole, fraction, none⟩, rest)
  | [] => return (⟨negative, whole, fraction, none⟩, [])

mutual

/-- A value and the characters after it. -/
def value : Nat → List Char → Option (Tree × List Char)
  | 0, _ => none
  | fuel + 1, cs =>
    match skip cs with
    | 'n' :: 'u' :: 'l' :: 'l' :: rest => some (.null, rest)
    | 't' :: 'r' :: 'u' :: 'e' :: rest => some (.bool true, rest)
    | 'f' :: 'a' :: 'l' :: 's' :: 'e' :: rest => some (.bool false, rest)
    | '\x22' :: rest => (stringBody rest).map fun r => (.string r.1, r.2)
    | '-' :: rest => (numberBody true rest).map fun r => (.number r.1, r.2)
    | '[' :: rest =>
      match skip rest with
      | ']' :: rest => some (.array [], rest)
      | rest => (items fuel rest).map fun r => (.array r.1, r.2)
    | '\x7b' :: rest =>
      match skip rest with
      | '\x7d' :: rest => some (.object [], rest)
      | rest => (members fuel rest).map fun r => (.object r.1, r.2)
    | rest => (numberBody false rest).map fun r => (.number r.1, r.2)

def items : Nat → List Char → Option (List Tree × List Char)
  | 0, _ => none
  | fuel + 1, cs => do
    let (v, rest) ← value fuel cs
    match skip rest with
    | ',' :: rest =>
      let (vs, rest) ← items fuel rest
      return (v :: vs, rest)
    | ']' :: rest => return ([v], rest)
    | _ => none

def members : Nat → List Char → Option (List (Option String × Tree) × List Char)
  | 0, _ => none
  | fuel + 1, cs =>
    match skip cs with
    | '\x22' :: rest => do
      let (k, rest) ← stringBody rest
      match skip rest with
      | ':' :: rest =>
        let (v, rest) ← value fuel rest
        match skip rest with
        | ',' :: rest =>
          let (ms, rest) ← members fuel rest
          return ((k, v) :: ms, rest)
        | '\x7d' :: rest => return ([(k, v)], rest)
        | _ => none
      | _ => none
    | _ => none

end

/-- Reads a text that holds one value and nothing else but white space. Each step of the
grammar takes a character within two calls, which bounds the fuel. -/
def read (s : String) : Option Tree :=
  let cs := s.toList
  match value (2 * cs.length + 2) cs with
  | some (t, rest) => if (skip rest).isEmpty then some t else none
  | none => none

end Tree

end Reports.Json
