import Reports.OrderedMap
import Reports.Url

/-! Texts kept for users between requests, by key, and where they are shared: the address of a Redis
server. A server that does not answer is as good as none, so only the address itself can be
wrong. -/
namespace Reports

structure UserStore where
  entries : OrderedMap String String := ∅
  deriving Repr, Inhabited

namespace UserStore

def empty : UserStore := {}

def get? (s : UserStore) (key : String) : Option String := s.entries.get? key

def set (s : UserStore) (key value : String) : UserStore := ⟨s.entries.insert key value⟩

def delete (s : UserStore) (key : String) : UserStore := ⟨s.entries.erase key⟩

inductive AddressError
  | unreadable
  | noHost
  | noPath
  | encryption
  | database
  | user
  | password
  | protocol (version : String)
  deriving Repr, DecidableEq

namespace AddressError

def reason : AddressError → String
  | unreadable => "Redis URL did not parse"
  | noHost => "Missing hostname"
  | noPath => "Missing path"
  | encryption => "can't connect with TLS, the feature is not enabled"
  | database => "Invalid database number"
  | user => "Username is not valid UTF-8 string"
  | password => "Password is not valid UTF-8 string"
  | protocol _ => "Invalid protocol version"

def message (e : AddressError) : String :=
  match e with
  | protocol version => e.reason ++ " - InvalidClientConfig: " ++ version
  | _ => e.reason ++ "- InvalidClientConfig"

end AddressError

def parameter? (url : Url) (name : String) : Option String :=
  (url.query.reverse.find? fun e => e.1 == name).map (·.2)

def checkDatabase (text : String) : Except AddressError Unit :=
  match Text.readInt64 text with
  | .ok _ => .ok ()
  | .error _ => .error .database

def checkProtocol (url : Url) : Except AddressError Unit :=
  match parameter? url "protocol" with
  | none => .ok ()
  | some version =>
    if ["2", "resp2", "3", "resp3"].contains version then .ok () else .error (.protocol version)

def trimSlashes (path : String) : String :=
  let strip (cs : List Char) := cs.dropWhile (· == '/')
  String.ofList (strip (strip path.toList).reverse).reverse

/-- Checks the address of a server in a network; the path holds the number of a database. -/
def checkServer (url : Url) : Except AddressError Unit := do
  if url.host.isNone then throw .noHost
  if url.scheme == "rediss" then throw .encryption
  let database := trimSlashes url.path
  if !database.isEmpty then checkDatabase database
  if (Text.percentDecode url.user).isNone then throw .user
  if (url.password.map Text.percentDecode) = some none then throw .password
  checkProtocol url

/-- Checks the address of a socket on this machine; a parameter holds the number of a
database. -/
def checkSocket (url : Url) : Except AddressError Unit := do
  if url.path.toList.head? ≠ some '/' ∨ url.host.getD "localhost" ≠
    "localhost" then throw .noPath
  match parameter? url "db" with
  | some text => checkDatabase text
  | none => pure ()
  checkProtocol url

def checkAddress (address : String) : Except AddressError Unit :=
  match Url.read address with
  | none => .error .unreadable
  | some url =>
    if ["redis", "rediss"].contains url.scheme then checkServer url
    else if ["unix", "redis+unix"].contains url.scheme then checkSocket url
    else .error .unreadable

def connect (address : Option String) : Except AddressError UserStore :=
  match address with
  | none => .ok .empty
  | some address => (checkAddress address).map fun _ => .empty

end UserStore

end Reports
