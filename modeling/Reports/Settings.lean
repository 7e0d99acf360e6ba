import Reports.Event
import Reports.Text.Basic
import Reports.Text.Numeral

/-! Settings, read from named variables. -/
namespace Reports

structure Settings where
  databaseUrl : Option String := none
  maxConnections : UInt32 := 10
  tablePrefix : String := ""
  defaultPerPage : UInt32 := 10
  maxPerPage : UInt32 := 100
  /-- Stands between the parts of a row's identity. -/
  delimiter : String := "-"
  /-- Where choices of users are shared; none when they stay in this process. -/
  redisUrl : Option String := none
  cacheCapacity : UInt64 := 10000
  deriving Repr, DecidableEq, Inhabited

inductive SettingsError
  | notANumber (key kind : String) (cause : Text.NumeralError)
  | unsafePrefix
  deriving Repr, DecidableEq

namespace SettingsError

def message : SettingsError → String
  | notANumber key kind cause =>
    key ++ " must be a valid " ++ kind ++ ": " ++ cause.message
  | unsafePrefix => "QUARRY_TABLE_PREFIX may only contain letters, digits and underscores"

end SettingsError

namespace Settings

def number {α : Type} (lookup : String → Option String) (key kind : String)
    (read : String → Except Text.NumeralError α) (default : α) : Except SettingsError α :=
  match lookup key with
  | none => .ok default
  | some text =>
    match read text with
    | .ok n => .ok n
    | .error cause => .error (.notANumber key kind cause)

def variableNames : List String :=
  ["QUARRY_DATABASE_URL", "QUARRY_DATABASE_MAX_CONNECTIONS", "QUARRY_TABLE_PREFIX",
    "QUARRY_DEFAULT_PER_PAGE", "QUARRY_MAX_PER_PAGE", "QUARRY_UNIQUE_ID_DELIMITER",
    "QUARRY_REDIS_URL", "QUARRY_CACHE_CAPACITY"]

/-- Settings from variables; of several mistakes the first in this order is reported. -/
def ofVariables (lookup : String → Option String) : Except SettingsError Settings := do
  let defaults : Settings := {}
  let maxConnections ← number lookup "QUARRY_DATABASE_MAX_CONNECTIONS" "u32" Text.readUInt32
    defaults.maxConnections
  let tablePrefix := (lookup "QUARRY_TABLE_PREFIX").getD ""
  if !tablePrefix.toList.all Text.isNameChar then throw .unsafePrefix
  let defaultPerPage ← number lookup "QUARRY_DEFAULT_PER_PAGE" "u32" Text.readUInt32
    defaults.defaultPerPage
  let maxPerPage ← number lookup "QUARRY_MAX_PER_PAGE" "u32" Text.readUInt32 defaults.maxPerPage
  let cacheCapacity ← number lookup "QUARRY_CACHE_CAPACITY" "u64" Text.readUInt64
    defaults.cacheCapacity
  return {
    databaseUrl := lookup "QUARRY_DATABASE_URL"
    maxConnections, tablePrefix, defaultPerPage, maxPerPage, cacheCapacity
    delimiter := (lookup "QUARRY_UNIQUE_ID_DELIMITER").getD defaults.delimiter
    redisUrl := (lookup "QUARRY_REDIS_URL").filter fun v =>
      !(Text.trimChars v.toList).isEmpty }

def members (s : Settings) : List (String × Json) :=
  [("database_url", .ofOption .string s.databaseUrl),
    ("database_max_connections", s.maxConnections), ("table_prefix", s.tablePrefix),
    ("default_per_page", s.defaultPerPage),
    ("max_per_page", s.maxPerPage), ("unique_id_delimiter", s.delimiter),
    ("redis_url", .ofOption .string s.redisUrl), ("cache_capacity", s.cacheCapacity)]

/-- The page size granted: at most the maximum, and at least one row unless the maximum is
zero. -/
def clampPerPage (s : Settings) (requested : UInt32) : UInt32 :=
  if s.maxPerPage < requested then s.maxPerPage else max requested 1

def clampEvents (s : Settings) (requested : UInt32) : List Event :=
  if s.maxPerPage < requested then [.perPageCapped requested s.maxPerPage] else []

end Settings

end Reports
