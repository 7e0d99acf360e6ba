import Reports.Url

/-! Where databases of SQLite are: in a file, or in memory as long as a connection lasts. An address
of the scheme `sqlite` names one; the name may itself be a locator of the scheme `file`, with
parameters of its own. -/
namespace Reports.Sqlite

/-- What a connection may do with a file. With none of these it may only work in memory. -/
inductive Access
  | nothing
  | read
  | write
  | create
  deriving Repr, DecidableEq

namespace Access

def rank : Access → Nat
  | nothing => 0
  | read => 1
  | write => 2
  | create => 3

end Access

structure Opening where
  access : Access
  volatile : Bool
  system : String := "unix"
  deriving Repr, DecidableEq

namespace Opening

/-- The opening with another access, which an opening without memory may not widen. -/
def restrict? (o : Opening) (access : Access) : Option Opening :=
  if o.volatile || access.rank ≤ o.access.rank then some { o with access, volatile := false }
  else none

def amend? (o : Opening) : String × String → Option Opening
  | ("vfs", system) => some { o with system }
  | ("cache", "shared") | ("cache", "private") => some o
  | ("cache", _) => none
  | ("mode", "ro") => o.restrict? .read
  | ("mode", "rw") => o.restrict? .write
  | ("mode", "rwc") => o.restrict? .create
  | ("mode", "memory") => some { o with access := .nothing, volatile := true }
  | ("mode", _) => none
  | _ => some o

end Opening

inductive Location
  | volatile
  | file (path : String) (create : Bool)
  deriving Repr, DecidableEq

namespace Location

def diskSystems : List String := ["unix", "unix-none", "unix-dotfile", "unix-excl"]

/-- One more part of a path whose parts stand last first. An empty one and a dot lead nowhere, two
dots lead back; at the root there is nothing to lead back to. -/
def extend (absolute : Bool) (parts : List (List Char)) (part : List Char) : List (List Char) :=
  if part == [] || part == ['.'] then parts
  else if part == ['.', '.'] then
    match parts with
    | [] => if absolute then [] else [part]
    | last :: rest => if last == ['.', '.'] then part :: parts else rest
  else part :: parts

def tidy (path : String) : String :=
  let absolute := path.toList.head? == some '/'
  let parts := ((Text.pieces '/' path.toList).foldl (extend absolute) []).reverse
  (if absolute then "/" else "") ++ Text.join "/" (parts.map String.ofList)

/-- The place of a name. Without a name, and under one that says so, a database is in memory. A
system of its own keeps files in memory and has room for names of 1016 bytes. -/
def ofName? (o : Opening) (name : List UInt8) : Option Location :=
  let path := Text.ofBytes name
  if !(o.system == "memdb" || diskSystems.contains o.system) then none
  else if o.volatile || path == "" || path == ":memory:" then some volatile
  else if o.system == "memdb" then if name.length ≤ 1016 then some volatile else none
  else some (file (tidy path) (o.access == .create))

/-- Part of a locator, percent-encoded. It ends at the first zero byte. -/
def part (cs : List Char) : List UInt8 := (Text.percentBytes cs).takeWhile (· != 0)

def namedParts (cs : List Char) : List (String × String) :=
  (Text.pieces '&' cs).filterMap fun piece =>
    let (name, value) := (Text.splitFirst '=' piece).getD (piece, [])
    let name := Text.ofBytes (part name)
    if name == "" then none else some (name, Text.ofBytes (part value))

def afterAuthority? : List Char → Option (List Char)
  | '/' :: '/' :: cs =>
    let (authority, rest) := Text.cut (· == '/') cs
    if authority.isEmpty || authority == "localhost".toList then some rest else none
  | cs => some cs

def ofLocator? (o : Opening) (cs : List Char) : Option Location := do
  let cs ← afterAuthority? cs
  let (cs, _) := Text.cut (· == '#') cs
  let (path, query) := (Text.splitFirst '?' cs).getD (cs, [])
  let o ← (namedParts query).foldlM Opening.amend? o
  ofName? o (part path)

structure Parameters where
  readOnly : Bool := false
  create : Bool := false
  volatile : Bool := false
  immutable : Bool := false
  system : Option String := none
  deriving Repr, DecidableEq

namespace Parameters

def amend? (r : Parameters) : String × String → Option Parameters
  | ("mode", "ro") => some { r with readOnly := true }
  | ("mode", "rw") => some r
  | ("mode", "rwc") => some { r with create := true }
  | ("mode", "memory") => some { r with volatile := true }
  | ("cache", "private") | ("cache", "shared") => some r
  | ("immutable", "true") | ("immutable", "1") => some { r with immutable := true }
  | ("immutable", "false") | ("immutable", "0") => some { r with immutable := false }
  | ("vfs", system) => some { r with system := some system }
  | _ => none

def opening (r : Parameters) : Opening where
  access := if r.readOnly then .read else if r.create then .create else .write
  volatile := r.volatile

/-- The place of a name. A name that goes along with parameters for the system stands for itself;
otherwise it may be a locator, and holds no zero. -/
def place? (r : Parameters) (name : String) : Option Location :=
  let upToZero (s : String) := s.toList.takeWhile (· != '\x00')
  if r.immutable || r.system.isSome then
    let system := String.ofList (upToZero (r.system.getD r.opening.system))
    ofName? { r.opening with system } (String.ofList (upToZero name)).toUTF8.toList
  else if name.toList.contains '\x00' then none
  else match name.toList with
    | 'f' :: 'i' :: 'l' :: 'e' :: ':' :: rest => ofLocator? r.opening rest
    | _ => ofName? r.opening name.toUTF8.toList

end Parameters

/-- Drops a text from the start as often as it stands there. The length of the other text bounds
`fuel`. -/
def dropAll (start : List Char) : Nat → List Char → List Char
  | 0, cs => cs
  | fuel + 1, cs => if start.isPrefixOf cs then dropAll start fuel (cs.drop start.length) else cs

/-- The place that an address of the scheme `sqlite` names. The scheme may stand several times, and
the name is percent-encoded. -/
def read? (address : String) : Option Location := do
  let cs := address.toList
  let cs := dropAll "sqlite://".toList cs.length cs
  let cs := dropAll "sqlite:".toList cs.length cs
  let (name, query) := (Text.splitFirst '?' cs).getD (cs, [])
  let name := String.ofList name
  let r ← (Url.formPairs query).foldlM Parameters.amend? { volatile := name == ":memory:" }
  let name ← if name == ":memory:" then some "" else Text.percentDecode name
  r.place? name

end Location

end Reports.Sqlite
