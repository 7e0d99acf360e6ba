import Reports.Error
import Reports.Json.Access
import Reports.Text.Basic

/-! What happens while reports are built, for the log. -/
namespace Reports

inductive Level
  | debug
  | info
  | warn
  | error
  deriving Repr, DecidableEq

def Level.name : Level → String
  | debug => "DEBUG"
  | info => "INFO"
  | warn => "WARN"
  | error => "ERROR"

inductive Event
  | countServed (count : UInt64)
  | countRetried (cause : Error)
  | fallbackCountFailed (cause : Error)
  | optionsLoaded (count : Nat)
  | collectionReady (identifier : String) (filters : Nat)
  | staleState (filter : String) (cause : Error)
  | labelsLoaded (table : String)
  | perPageCapped (requested capped : UInt32)
  | queryAssembled (report : String)
  | sortIgnored (field : String)
  | queryRefused (cause : Error)
  | notConfigured (report : String)
  | executed (report : String) (rows : Nat) (page : Option UInt32)
  deriving Repr

namespace Event

def level : Event → Level
  | countServed _ | optionsLoaded _ | collectionReady _ _ | labelsLoaded _ | queryAssembled _
  | notConfigured _ => .debug
  | executed _ _ _ => .info
  | countRetried _ | staleState _ _ | perPageCapped _ _ | sortIgnored _ | queryRefused _ => .warn
  | fallbackCountFailed _ => .error

def message : Event → String
  | countServed _ => "count served from request cache"
  | countRetried _ => "count query failed, retrying with plain COUNT(*)"
  | fallbackCountFailed _ => "fallback count query failed"
  | optionsLoaded _ => "loaded filter options"
  | collectionReady _ _ => "filter collection initialized"
  | staleState _ _ => "dropping stale filter state"
  | labelsLoaded _ => "lookup labels prefetched"
  | perPageCapped _ _ => "per_page exceeds maximum, capping"
  | queryAssembled _ => "report query assembled"
  | sortIgnored _ => "ignoring sort on unsortable field"
  | queryRefused _ => "report query could not be built"
  | notConfigured _ => "report not configured, skipping query"
  | executed _ _ _ => "report executed"

def fields : Event → List (String × String)
  | countServed count => [("count", Text.decimal count.toNat)]
  | countRetried cause => [("error", cause.message)]
  | fallbackCountFailed cause => [("error", cause.message)]
  | optionsLoaded count => [("options", Text.decimal count)]
  | collectionReady identifier filters =>
    [("collection", identifier), ("filters", Text.decimal filters)]
  | staleState filter cause => [("filter", filter), ("error", cause.message)]
  | labelsLoaded table => [("table", table)]
  | perPageCapped requested capped =>
    [("requested", Text.decimal requested.toNat), ("capped", Text.decimal capped.toNat)]
  | queryAssembled report => [("source", report)]
  | sortIgnored field => [("field", field)]
  | queryRefused cause => [("error", cause.message)]
  | notConfigured report => [("source", report)]
  | executed report rows page =>
    [("source", report), ("rows", Text.decimal rows)] ++
      (page.map fun p => ("page", Text.decimal p.toNat)).toList

def toJson (e : Event) : Json :=
  .array [e.level.name, e.message, .list (fun f => .texts [f.1, f.2]) e.fields]

end Event

end Reports
