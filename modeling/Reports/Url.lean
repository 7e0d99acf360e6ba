import Reports.Text.Utf8
import Reports.Text.Numeral
import Reports.Text.Basic

/-! Locators of resources: a scheme and, after two slashes, a host. The syntax is that of schemes
without rules of their own for hosts and paths. A host is a name or an address of 128 bits in
brackets. Of the segments of a path, one of one dot leads nowhere and one of two dots back by a
segment; what is left of the path holds neither. -/
namespace Reports

structure Url where
  scheme : String
  /-- As written, percent signs and all. -/
  user : String := ""
  password : Option String := none
  /-- None also when there is an authority with nothing in it. -/
  host : Option String := none
  portNumber : Option Nat := none
  path : String := ""
  query : List (String × String) := []
  deriving Repr

namespace Url

/-- Drops blanks and control characters at the ends, and tabs and line ends everywhere. -/
def clean (cs : List Char) : List Char :=
  let strip (cs : List Char) := cs.dropWhile fun c => c.toNat ≤ 32
  (strip (strip cs).reverse).reverse.filter fun c => !(c == '\t' || c == '\n' || c == '\r')

def isScheme : List Char → Bool
  | [] => false
  | c :: rest => Text.isLetter c &&
    rest.all fun c => Text.isLetter c || Text.isDigit c || c == '+' || c == '-' || c == '.'

def isForbidden (c : Char) : Bool := "\x00\t\n\r #/:<>?@[\\]^|".toList.contains c

/-- A number from 0 to 255 without needless zeros. -/
def isOctet (cs : List Char) : Bool :=
  !cs.isEmpty && cs.all Text.isDigit && (cs.head? != some '0' || cs.length == 1) &&
    Text.digitsValue cs ≤ 255

def isInet4 (cs : List Char) : Bool :=
  (Text.pieces '.' cs).length == 4 && (Text.pieces '.' cs).all isOctet

def isHexDigit (c : Char) : Bool := (Text.hexValue? c).isSome

/-- Whether a text fills `room` groups of sixteen bits: hexadecimal numbers with colons between
them, at the end also four octets that make two groups. Once, as `gap` tells, two colons may stand
for groups of zeros, one at least. The length of the text bounds `fuel`. -/
def fillsGroups (fuel room : Nat) (gap : Bool) (cs : List Char) : Bool :=
  match fuel, room, cs with
  | _, room, [] => gap || room == 0
  | fuel + 1, room + 1, ':' :: rest => !gap && fillsGroups fuel room true rest
  | fuel + 1, room + 1, cs =>
    let digits := (cs.take 4).takeWhile isHexDigit
    match cs.drop digits.length with
    | [] => fillsGroups fuel room gap []
    | '.' :: _ => !digits.isEmpty && isInet4 cs && (room == 1 || gap && 1 ≤ room)
    | ':' :: rest => !digits.isEmpty && !rest.isEmpty && fillsGroups fuel room gap rest
    | _ => false
  | _, _, _ => false

def isInet6 : List Char → Bool
  | ':' :: ':' :: rest => fillsGroups rest.length 7 true rest
  | ':' :: _ => false
  | cs => fillsGroups cs.length 8 false cs

/-- Whether a text may be a host: a name, or an address in brackets. -/
def isHost (cs : List Char) : Bool :=
  match cs with
  | '[' :: rest => rest.getLast? == some ']' && isInet6 rest.dropLast
  | _ => !cs.any isForbidden

def hostAndNumber (cs : List Char) : Option (List Char × Option Nat × List Char) :=
  let (host, rest) := match cs with
    | '[' :: _ =>
      let (a, b) := Text.cut (· == ']') cs
      (a ++ b.take 1, b.drop 1)
    | _ => Text.cut (· == ':') cs
  if !isHost host then none
  else match rest with
    | [] => some (host, none, [])
    | ':' :: rest =>
      let (digits, rest) := Text.cut (· == '\\') rest
      let n := Text.digitsValue digits
      if host.isEmpty || !digits.all Text.isDigit || 65535 < n then none
      else some (host, if digits.isEmpty then none else some n, rest)
    | _ => none

/-- The number of dots of which a segment is made, as they are or percent-encoded. -/
def dots : List Char → Option Nat
  | [] => some 0
  | '.' :: rest => (dots rest).map (· + 1)
  | '%' :: '2' :: 'e' :: rest | '%' :: '2' :: 'E' :: rest => (dots rest).map (· + 1)
  | _ => none

def isDots (segment : List Char) : Bool := dots segment == some 1 || dots segment == some 2

/-- A letter with a colon or a bar, alone or before a backslash: such a segment is never left. -/
def isDrive : List Char → Bool
  | [c, d] | c :: d :: '\\' :: _ => Text.isLetter c && (d == ':' || d == '|')
  | _ => false

def leave : List (List Char) → List (List Char)
  | [] => []
  | s :: rest => if isDrive s then s :: rest else rest

def advance (place : List (List Char)) (segment : List Char) : List (List Char) :=
  if dots segment = some 1 then place
  else if dots segment = some 2 then leave place
  else segment :: place

/-- Follows segments from a place. After a last segment of dots the path ends in a slash. -/
def follow (place : List (List Char)) : List (List Char) → List (List Char)
  | [] => place.reverse
  | [s] => ((if isDots s then [[]] else []) ++ advance place s).reverse
  | s :: rest => follow (advance place s) rest

/-- A path without segments of dots. A text that does not begin with a slash has no segments and
stays. -/
def straighten : List Char → List Char
  | '/' :: cs => (follow [] (Text.pieces '/' cs)).flatMap ('/' :: ·)
  | cs => cs

def formText (cs : List Char) : String :=
  Text.percentText (String.ofList (cs.map fun c => if c = '+' then ' ' else c))

def formPairs (cs : List Char) : List (String × String) :=
  ((Text.pieces '&' cs).filter fun part => !part.isEmpty).map fun part =>
    match Text.splitFirst '=' part with
    | some (k, v) => (formText k, formText v)
    | none => (formText part, "")

def pathAndQuery (cs : List Char) : String × List (String × String) :=
  let (cs, _) := Text.cut (· == '#') cs
  match Text.splitFirst '?' cs with
  | some (path, query) => (String.ofList (straighten path), formPairs query)
  | none => (String.ofList (straighten cs), [])

def credentials (cs : List Char) : String × Option String :=
  match Text.splitFirst ':' cs with
  | none | some (_, []) => (String.ofList (cs.takeWhile (· != ':')), none)
  | some (user, password) => (String.ofList user, some (String.ofList password))

/-- Whether what stands before an at sign, with this text after the authority, may not go without
a host. A colon alone may, and nothing at all where the text ends. -/
def needsHost (info : Option (List Char)) (rest : List Char) : Bool :=
  match info with
  | none | some [':'] => false
  | some [] => !rest.isEmpty
  | some _ => true

/-- Reads a locator. Without a scheme it is none, and a user or a number needs a host. -/
def read (s : String) : Option Url := do
  let (scheme, rest) ← Text.splitFirst ':' (clean s.toList)
  if !isScheme scheme then none
  let scheme := String.ofList (scheme.map Text.lowerChar)
  match rest with
  | '/' :: '/' :: rest =>
    let (authority, rest) := Text.cut (fun c => c == '/' || c == '?' || c == '#') rest
    let (info, address) := match Text.splitLast '@' authority with
      | some (info, address) => (some info, address)
      | none => (none, authority)
    let (host, portNumber, tail) ← hostAndNumber address
    if host.isEmpty && needsHost info rest then none
    let (user, password) := credentials (info.getD [])
    let (path, query) := pathAndQuery (if tail.isEmpty then rest else '/' :: tail ++ rest)
    return { scheme, user, password, portNumber, path, query,
             host := if host.isEmpty then none else some (String.ofList host) }
  | rest =>
    let (path, query) := pathAndQuery rest
    return { scheme, path, query }

end Url

end Reports
