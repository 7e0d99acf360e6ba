import Reports.Report.Definition
import Reports.Report.Preferences
import Reports.Settings
import Reports.Sql.Count

/-! Requests for a report: its query, its rows and its page. The query is put together once and
kept until something it depends on is set anew; counts are kept as long as the request. -/
namespace Reports

/-- The rows to show, and the page when the layout has pages. -/
structure RowSet where
  rows : List Row := []
  page : Option PageInfo := none
  deriving Inhabited

structure Request where
  report : Report
  storage : Storage
  settings : Settings := {}
  preferences : Option Preferences := none
  /-- Goes before the layout of the preferences. -/
  layoutOverride : Option Layout := none
  page : UInt32 := 1
  sort : Option (String × Sql.Direction) := none
  fields : List Field
  filters : Filter.Collection
  query : Option Sql.Query := none
  counts : Sql.CountMemo := .empty
  labels : Field.Labels := .empty
  clock : Int := 0

/-- What is done with a request in a session. A failure keeps what was done before it. -/
abbrev RequestAction (α : Type) := ExceptT Error (StateT Request (StateM Session)) α

namespace Request

def firstDuplicate (seen : List String) : List String → Option String
  | [] => none
  | n :: rest => if seen.contains n then some n else firstDuplicate (n :: seen) rest

/-- A request with default settings. Names of fields must be distinct. -/
def new (report : Report) (storage : Storage) (context : Filter.Context) (clock : Int := 0) :
    Except Error Request := do
  let settings : Settings := {}
  let context := { context with tablePrefix := settings.tablePrefix }
  let fields := report.fields.map (·.setTablePrefix settings.tablePrefix)
  match firstDuplicate [] (fields.map (·.name)) with
  | some name => throw (.duplicateField name)
  | none => pure ()
  let filters ← report.filters context
  return { report, storage, settings, fields, filters, clock }

def forget (r : Request) : Request := { r with query := none }

def withFilters (r : Request) (filters : Filter.Collection) : Request :=
  { r with filters, query := none }

/-- Sets preferences. Filters that they disable are removed for good. -/
def withPreferences (r : Request) (p : Preferences) : Request :=
  { r with
    filters := { r.filters with filters := r.filters.filters.filter p.isFilterEnabled }
    preferences := some p, query := none }

def withLayout (r : Request) (l : Layout) : Request :=
  { r with layoutOverride := some l, query := none }

def withPage (r : Request) (page : UInt32) : Request :=
  { r with page := max page 1, query := none }

def withSort (r : Request) (field : String) (direction : Sql.Direction) : Request :=
  { r with sort := some (field, direction), query := none }

def withSettings (r : Request) (s : Settings) : Request :=
  { r with
    filters := r.filters.setContext { r.filters.context with tablePrefix := s.tablePrefix }
    fields := r.fields.map (·.setTablePrefix s.tablePrefix)
    settings := s, query := none }

def dialect (r : Request) : Sql.Dialect := r.storage.dialect

def layout (r : Request) : Layout :=
  (r.layoutOverride.or (r.preferences.map (·.layout))).getD .table

def field? (r : Request) (name : String) : Except Error Field :=
  match r.fields.find? fun f => f.name == name with
  | some f => .ok f
  | none => .error (.unknownField name)

def requestedPerPage (r : Request) : UInt32 :=
  (r.preferences.bind (·.perPage)).getD r.settings.defaultPerPage

def perPage (r : Request) : UInt32 := r.settings.clampPerPage r.requestedPerPage

def perPageEvents (r : Request) : List Event := r.settings.clampEvents r.requestedPerPage

def displayLe (p : Preferences) (f g : Field) : Bool :=
  if f.isIdentifier == g.isIdentifier then decide (p.fieldOrder f.name ≤ p.fieldOrder g.name)
  else f.isIdentifier

def displayFields (r : Request) : List Field :=
  match r.preferences with
  | none =>
    let visible := r.fields.filter (·.isVisible)
    visible.filter (·.isIdentifier) ++ visible.filter fun f => !f.isIdentifier
  | some p => (r.fields.filter p.isFieldVisible).mergeSort (displayLe p)

def sortableExpr? (display : List Field) (name : String) : Option String :=
  match display.find? fun f => f.name == name && f.isSortable with
  | some f => f.sortExpression?
  | none => none

/-- The ordering in effect: the one asked for if it can be used, else the default one. -/
def resolveSort (r : Request) (display : List Field) : Option (String × Sql.Direction) :=
  let fallback := do
    let p ← r.preferences
    let name ← p.defaultSort
    let expr ← sortableExpr? display name
    return (expr, p.defaultDirection)
  match r.sort with
  | some (name, direction) =>
    match sortableExpr? display name with
    | some expr => some (expr, direction)
    | none => fallback
  | none => fallback

def sortEvents (r : Request) (display : List Field) : List Event :=
  match r.sort with
  | some (name, _) => if (sortableExpr? display name).isNone then [.sortIgnored name] else []
  | none => []

def identityParts : List Field → Except Error (List String)
  | [] => .ok []
  | f :: rest =>
    match f.select with
    | none => .error (.missingSelect f.name)
    | some expr => do
      let exprs ← identityParts rest
      return expr :: exprs

/-- Several identifiers as one text: each as text, nothing for null, the delimiter between. -/
def identityExpr (d : Sql.Dialect) (delimiter : String) : List String → Option String
  | [] => none
  | [single] => some single
  | many =>
    some
      (Sql.Dialect.concat ((many.map fun e => "COALESCE(" ++ d.castToText e ++ ", '')").intersperse
      (Sql.Dialect.quoteString delimiter)))

/-- Adds the conditions of the filters, as far as they restrict anything. -/
def restrict (q : Sql.Query) (sql : Filter.CollectionSql) : Sql.Query :=
  let q := if sql.whereSql.isTrivial then q else q.whereRaw sql.whereSql.statement
  if sql.havingSql.isTrivial then q else q.havingRaw sql.havingSql.statement

def selectFields (q : Sql.Query) (fields : List Field) : Sql.Query :=
  fields.foldl (fun q f => match f.select with
    | some expr => q.select expr f.name
    | none => q) q

def arrange (r : Request) (sql : Filter.CollectionSql) : Except Error Sql.Query := do
  let q := restrict (r.report.template.setPrefix r.settings.tablePrefix) sql
  let identifiers := r.fields.filter (·.isIdentifier)
  let parts ← identityParts identifiers
  let q := match identityExpr r.dialect r.settings.delimiter parts with
    | some expr => q.select expr Sql.uniqueId
    | none => q
  let display := r.displayFields
  let q := selectFields (selectFields q identifiers) display
  let q := match r.resolveSort display with
    | some (expr, direction) => q.order expr direction
    | none => q
  if r.layout.isPaginated then
    let n := r.perPage.toUInt64
    return (q.setOffset ((r.page - 1).toUInt64 * n)).setLimit n
  else return q

def arrangeEvents (r : Request) : List Event :=
  r.sortEvents r.displayFields ++ if r.layout.isPaginated then r.perPageEvents else []

def logAll (events : List Event) : StateM Session Unit :=
  modify fun s => { s with events := s.events ++ events }

/-- Puts the query together and renders it once, so that only a query that renders is kept. -/
def buildQuery (r : Request) : Action Sql.Query := do
  let sql ← Session.draw (r.filters.render r.dialect)
  match r.arrange sql with
  | .error e => throw e
  | .ok q =>
    logAll r.arrangeEvents
    let _ ← Session.draw (q.render r.dialect)
    Session.log (.queryAssembled r.report.name)
    return q

/-- Wraps errors that have nothing to do with the storage, and logs them unless they are
faults. -/
def orUnavailable {α : Type} (x : Action α) : Action α := do
  match ← Session.attempt x with
  | .ok a => return a
  | .error (.unavailable cause) => throw (.unavailable cause)
  | .error e =>
    if !e.isFault then Session.log (.queryRefused e)
    throw (.unavailable e)

def act {α : Type} (x : Action α) : RequestAction α := fun r s =>
  let (a, s) := x s
  ((a, r), s)

def current : RequestAction Request := fun r s => ((.ok r, r), s)

def update (f : Request → Request) : RequestAction Unit := fun r s => ((.ok (), f r), s)

/-- The query of the report, put together on first use. -/
def getQuery : RequestAction Sql.Query := do
  let r ← current
  match r.query with
  | some q => return q
  | none =>
    let q ← act (orUnavailable r.buildQuery)
    update fun r => { r with query := some q }
    return q

def count (unique : Bool) : RequestAction UInt64 := do
  let q ← getQuery
  let r ← current
  let (n, counts) ← act (Sql.executeCount r.storage q unique r.counts)
  update fun r => { r with counts }
  return n

/-- The page asked for, or the last one when it is past the end. -/
def pageInfo : RequestAction PageInfo := do
  let r ← current
  act (logAll r.perPageEvents)
  let paginator := Paginator.new r.perPage
  let total ← count true
  return paginator.paginate r.page total

def init : RequestAction Unit := fun r s =>
  let ((result, filters), s) := r.filters.init r.storage s
  ((result, { r with filters }), s)

/-- Applies a value from a user; tells whether it was. The query is forgotten either way. -/
def applyFilter (name : String) (value : Json) : RequestAction Bool := fun r s =>
  match r.filters.apply name value with
  | .ok (b, c) => ((.ok b, r.withFilters c), s)
  | .error e => ((.error e, r.forget), s)

def idsOfRows (name : String) (rows : List Row) : List String :=
  rows.flatMap fun row => ((row.get? name).map Field.idsOf).getD []

def prefetchAttribute (name : String) (rows : List Row) (a : Field.Attribute) :
    RequestAction Unit := do
  match a.lookup? with
  | none => return ()
  | some l =>
    let ids := idsOfRows name rows
    if ids.isEmpty then return ()
    else
      let r ← current
      let labels ← act (r.labels.prefetch r.storage l ids)
      update fun r => { r with labels }

def prefetchAttributes (name : String) (rows : List Row) : List Field.Attribute →
    RequestAction Unit
  | [] => return ()
  | a :: rest => do
    prefetchAttribute name rows a
    prefetchAttributes name rows rest

def prefetchLabels (rows : List Row) : List Field → RequestAction Unit
  | [] => return ()
  | f :: rest => do
    prefetchAttributes f.name rows f.attributes
    prefetchLabels rows rest

/-- The shown cell of a field; a column that the row lacks is null. -/
def showCell (reading : Field.Reading) (row : Row) (f : Field) : Option (String × Json) :=
  (f.transform reading ((row.get? f.name).getD .null) row).map fun v => (f.name, v)

/-- The shown cells of one row; none when some attribute cannot be carried out. -/
def showRow (reading : Field.Reading) (display : List Field) (row : Row) : Option Row :=
  (display.mapM (showCell reading row)).map OrderedMap.ofList

/-- Runs the report. Without preferences nothing is asked and there are no rows. None when the
rows are there but some attribute cannot be carried out. -/
def getData : RequestAction (Option RowSet) := do
  let r ← current
  if r.preferences.isNone then
    act (Session.log (.notConfigured r.report.name))
    return some {}
  else
    init
    let page ← if r.layout.isPaginated then some <$> pageInfo else pure none
    let q ← getQuery
    let q := match page with
      | some info => q.setOffset info.offset
      | none => q
    let s ← act (orUnavailable (Session.draw (q.render r.dialect)))
    let raw ← act (r.storage.fetch s)
    let display := r.displayFields
    prefetchLabels raw display
    let r ← current
    match raw.mapM (showRow { labels := r.labels, clock := r.clock } display) with
    | none => return none
    | some rows =>
      act (Session.log (.executed r.report.name rows.length (page.map (·.page))))
      return some { rows, page }

end Request

end Reports
