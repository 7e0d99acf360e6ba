import Reports.Report.Request
import Reports.Text.Escape
import Reports.Text.Invisible

/-! What is seen of a request from outside: its rows and its page as JSON, and the request itself in
one line, for those who look into a running program. -/
namespace Reports

namespace PageInfo

def toJson (p : PageInfo) : Json :=
  .object [("page", .ofNat p.page.toNat), ("per_page", .ofNat p.perPage.toNat),
    ("total", .ofNat p.total.toNat), ("total_pages", .ofNat p.totalPages.toNat),
    ("offset", .ofNat p.offset.toNat), ("has_next", .bool p.hasNext), ("has_prev", .bool p.hasPrev)]

def asUInt64 (t : Json.Tree) : Option UInt64 :=
  (t.asInt 0 maxUInt64).map fun n => UInt64.ofNat n.toNat

def ofTree (t : Json.Tree) : Option PageInfo := do
  let m ← t.fields ["page", "per_page", "total", "total_pages", "offset", "has_next", "has_prev"]
  return {
    page := ← asUInt32 (← m.get? "page")
    perPage := ← asUInt32 (← m.get? "per_page")
    total := ← asUInt64 (← m.get? "total")
    totalPages := ← asUInt32 (← m.get? "total_pages")
    offset := ← asUInt64 (← m.get? "offset")
    hasNext := ← (← m.get? "has_next").asBool
    hasPrev := ← (← m.get? "has_prev").asBool }

end PageInfo

def RowSet.toJson (x : RowSet) : Json :=
  .object [("rows", .array (x.rows.map .ofMap)), ("page", (x.page.map PageInfo.toJson).getD .null)]

namespace Text

/-- A character by its number, in lower-case hexadecimal digits. -/
def numbered (c : Char) : List Char := "\\u\x7b".toList ++ Nat.toDigits 16 c.toNat ++ ['\x7d']

def shownChar (c : Char) : List Char :=
  match c with
  | '\x00' => ['\\', '0']
  | '\t' => ['\\', 't']
  | '\r' => ['\\', 'r']
  | '\n' => ['\\', 'n']
  | '\\' | '\x22' => ['\\', c]
  | _ => if isExtender c || isShapeless c then numbered c else [c]

/-- A text between quotes with its characters made visible. -/
def shown (s : String) : String := "\x22" ++ mapChars shownChar s ++ "\x22"

end Text

namespace Request

def titled (word : String) : String :=
  match word.toList with
  | [] => ""
  | c :: rest => String.ofList (Text.upperChar c :: rest)

def summary (r : Request) : String :=
  "DataSource \x7b source: " ++ Text.shown r.report.name ++ ", layout: " ++ titled r.layout.name ++
    ", page: " ++ Text.decimal r.page.toNat ++ ", fields: " ++ Text.decimal r.fields.length ++
    ", .. \x7d"

end Request

end Reports
