import Reports.Text.Basic
import Reports.Text.Numeral
import Reports.Json.Reader

/-! Pages: where a page stands in the whole result. -/
namespace Reports

structure PageInfo where
  page : UInt32
  perPage : UInt32
  total : UInt64
  totalPages : UInt32
  offset : UInt64
  hasNext : Bool
  hasPrev : Bool
  deriving Repr, DecidableEq, Inhabited

namespace PageInfo

/-- Pages needed for a total, as far as 32 bits count them. -/
def pagesFor (total : UInt64) (perPage : UInt32) : UInt32 :=
  let p := perPage.toUInt64
  let whole := total / p
  let pages := if total % p = 0 then whole else whole + 1
  if pages ≤ 0xFFFFFFFF then pages.toUInt32 else 0xFFFFFFFF

/-- The page for a request; a page past the end becomes the last one. -/
def new (total : UInt64) (page perPage : UInt32) : PageInfo :=
  let perPage := max perPage 1
  let totalPages := pagesFor total perPage
  let page := min (max page 1) (max totalPages 1)
  { page, perPage, total, totalPages
    offset := (page - 1).toUInt64 * perPage.toUInt64
    hasNext := decide (page < totalPages)
    hasPrev := decide (1 < page) }

def asUInt32 (t : Json.Tree) : Option UInt32 :=
  (t.asInt 0 maxUInt32).map fun n => UInt32.ofNat n.toNat

end PageInfo

structure Paginator where
  perPage : UInt32
  parameter : String
  deriving Repr, DecidableEq

namespace Paginator

def defaultParameter : String := "page"

def new (perPage : UInt32) (parameter : String := defaultParameter) : Paginator :=
  { perPage := max perPage 1, parameter }

def requestedPage (p : Paginator) (params : OrderedMap String String) : UInt32 :=
  match params.get? p.parameter with
  | none => 1
  | some text =>
    match Text.readUInt32 (Text.trim text) with
    | .ok n => if 0 < n then n else 1
    | .error _ => 1

def paginate (p : Paginator) (page : UInt32) (total : UInt64) : PageInfo :=
  .new total page p.perPage

end Paginator

end Reports
