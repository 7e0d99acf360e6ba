import Reports.Session
import Reports.Sqlite.Location

/-! Where databases are: their addresses, and what can be wrong with one. -/
namespace Reports

inductive ConnectError
  | noAddress
  | unknownScheme (address : String)
  | sqlite
  | postgres
  deriving Repr, DecidableEq

namespace ConnectError

def message : ConnectError → String
  | noAddress => "QUARRY_DATABASE_URL is not set"
  | unknownScheme address => "unsupported database URL scheme: " ++ address
  | sqlite => "failed to connect to SQLite"
  | postgres => "failed to connect to PostgreSQL"

end ConnectError

structure Databases where
  stored : String → Option Storage
  creatable : String → Bool
  blank : Storage

namespace Databases

def open? (there : Databases) : Sqlite.Location → Option Storage
  | .volatile => some there.blank
  | .file path create =>
    match there.stored path with
    | some st => some st
    | none => if create && there.creatable path then some there.blank else none

def startsWith (start address : String) : Bool := start.toList.isPrefixOf address.toList

/-- Opens the database of an address. A pool without connections never gives one, and no server
is within reach. -/
def connect (there : Databases) (address : Option String) (connections : UInt32) :
    Except ConnectError Storage :=
  match address with
  | none => .error .noAddress
  | some address =>
    if startsWith "sqlite:" address then
      match (Sqlite.Location.read? address).bind there.open? with
      | some st => if connections = 0 then .error .sqlite else .ok st
      | none => .error .sqlite
    else if startsWith "postgres://" address || startsWith "postgresql://" address then
      .error .postgres
    else .error (.unknownScheme address)

end Databases

end Reports
