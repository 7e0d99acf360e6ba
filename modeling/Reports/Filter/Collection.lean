import Reports.Ascending
import Reports.Filter.Basic
import Reports.Session
import Reports.UserStore
import Reports.Sql.TableRef
import Reports.Json.Printer

/-! The filters of one report, and the choices that a user has made with them. -/
namespace Reports.Filter

/-- The choices of a user, by filter name in ascending order. -/
structure State where
  values : List (String × Json) := []
  deriving Repr, Inhabited

namespace State

def ofList (entries : List (String × Json)) : State := ⟨Ascending.ofList entries⟩

def text (s : State) : String := (Json.object [("values", .object s.values)]).text

/-- The entries of a written state. Other fields are ignored. -/
def read? (text : String) : Option State := do
  let tree ← Json.Tree.read text
  let fields ← tree.fields ["values"]
  let values ← fields.get? "values"
  let entries ← values.asMap (Json.Tree.toJson Json.read (Json.depthLimit - 2))
  return ofList entries.entries

end State

structure Collection where
  identifier : String
  filters : List Filter := []
  context : Context
  /-- Whether every filter has loaded what it needs. -/
  initialized : Bool := false

structure ClauseSql where
  statement : Sql.Statement
  deriving Repr

namespace ClauseSql

def trivialSql : String := "1=1"

/-- The conjunction of fragments; without any it is true. -/
def ofParts (parts : List Sql.Statement) : ClauseSql :=
  if parts.isEmpty then ⟨⟨trivialSql, ∅⟩⟩
  else
    ⟨⟨Text.join " AND " (parts.map (·.sql)),
      parts.foldl (fun acc s => acc.merge s.params) ∅⟩⟩

def isTrivial (c : ClauseSql) : Bool := c.statement.sql == trivialSql

end ClauseSql

structure CollectionSql where
  whereSql : ClauseSql
  havingSql : ClauseSql
  deriving Repr

def storeKey (userId : Int) (identifier : String) : String :=
  "quarry:filters:" ++ Text.signedDecimal userId ++ ":" ++ identifier

namespace Collection

def new (identifier : String) (context : Context) : Collection := { identifier, context }

def get? (c : Collection) (name : String) : Option Filter := c.filters.find? fun f => f.name == name

def has (c : Collection) (name : String) : Bool := (c.get? name).isSome

def setContext (c : Collection) (context : Context) : Collection := { c with context }

def add (c : Collection) (f : Filter) : Except Error Collection :=
  if c.has f.name then .error (.duplicateFilter f.name)
  else .ok { c with filters := c.filters ++ [f] }

def addAll (c : Collection) : List Filter → Except Error Collection
  | [] => .ok c
  | f :: rest => do
    let c ← c.add f
    c.addAll rest

def removeFirst (name : String) : List Filter → List Filter
  | [] => []
  | f :: rest => if f.name = name then rest else f :: removeFirst name rest

def remove (c : Collection) (name : String) : Collection :=
  { c with filters := removeFirst name c.filters }

def replaceFirst (name : String) (g : Filter) : List Filter → List Filter
  | [] => []
  | f :: rest => if f.name = name then g :: rest else f :: replaceFirst name g rest

def replace (c : Collection) (name : String) (g : Filter) : Collection :=
  { c with filters := replaceFirst name g c.filters }

/-- Input that says nothing: null, the empty text, the empty list. -/
def isEmptyInput : Json → Bool
  | .null => true
  | .string s => s.isEmpty
  | .array items => items.isEmpty
  | _ => false

/-- Applies a value from a user; tells whether it was. Empty input is passed over, and so is
input for a condition. -/
def apply (c : Collection) (name : String) (value : Json) : Except Error (Bool × Collection) :=
  if isEmptyInput value then .ok (false, c)
  else match c.get? name with
    | none => .error (.unknownFilter name)
    | some f =>
      if f.isCondition then .ok (false, c)
      else do
        let g ← f.setRaw value
        return (true, c.replace name g)

/-- Applies values in order up to the first that fails, and counts those applied. What was
applied before a failure stays. -/
def applyAll (c : Collection) (applied : Nat) :
    List (String × Json) → Except Error Nat × Collection
  | [] => (.ok applied, c)
  | (name, value) :: rest =>
    match c.apply name value with
    | .ok (b, c) => c.applyAll (if b then applied + 1 else applied) rest
    | .error e => (.error e, c)

def applied (c : Collection) : List Filter := c.filters.filter (·.isApplied)

/-- Whether a user has restricted anything; conditions do not count. -/
def hasUserChoice (c : Collection) : Bool := c.filters.any fun f => !f.isCondition && f.isApplied

def setRaw (c : Collection) (name : String) (value : Json) : Except Error Collection :=
  match c.get? name with
  | none => .ok c
  | some f => do
    let g ← f.setRaw value
    return c.replace name g

def clear (c : Collection) (name : String) : Collection :=
  match c.get? name with
  | none => c
  | some f => c.replace name f.clear

def renderFilters (d : Sql.Dialect) (ctx : Context) :
    List Filter → Sql.Draw (List (Clause × Sql.Statement))
  | [] => return []
  | f :: rest => do
    match ← f.predicate? ctx with
    | none => renderFilters d ctx rest
    | some p =>
      let s ← p.render d
      let ss ← renderFilters d ctx rest
      return (f.clause, s) :: ss

def partsOf (clause : Clause) (parts : List (Clause × Sql.Statement)) : List Sql.Statement :=
  (parts.filter fun e => e.1 == clause).map Prod.snd

def render (c : Collection) (d : Sql.Dialect) : Sql.Draw CollectionSql := do
  let parts ← renderFilters d c.context c.filters
  return ⟨.ofParts (partsOf .whereClause parts), .ofParts (partsOf .havingClause parts)⟩

def state (c : Collection) : State :=
  .ofList (c.filters.filterMap fun f =>
    if f.isCondition then none else f.raw.map fun v => (f.name, v))

/-- Applies saved choices. Those that can no longer be applied are dropped, and logged. -/
def restoreEntries (c : Collection) : List (String × Json) → Collection × List Event
  | [] => (c, [])
  | (name, value) :: rest =>
    match c.apply name value with
    | .ok (_, c) => c.restoreEntries rest
    | .error e =>
      let (c, events) := c.restoreEntries rest
      (c, .staleState name e :: events)

def restore (c : Collection) (s : State) : Collection × List Event := c.restoreEntries s.values

def storeKey (c : Collection) : String := Filter.storeKey c.context.userId c.identifier

def save (c : Collection) (store : UserStore) : UserStore := store.set c.storeKey c.state.text

def load (c : Collection) (store : UserStore) : Except Error (Bool × Collection × List Event) :=
  match store.get? c.storeKey with
  | none => .ok (false, c, [])
  | some text =>
    match State.read? text with
    | none => .error (.cache "malformed filter state")
    | some s =>
      let (c, events) := c.restore s
      .ok (true, c, events)

def forget (c : Collection) (store : UserStore) : UserStore := store.delete c.storeKey

def initFilter (st : Storage) (ctx : Context) (f : Filter) : Action Filter :=
  match f.handler with
  | .select s =>
    match s.source with
    | .query q => do
      let rows ← st.fetch { q with sql := Sql.TableRef.expand q.sql ctx.tablePrefix }
      let options := rows.filterMap Selection.optionOfRow
      Session.log (.optionsLoaded options.length)
      return { f with handler := .select { s with options } }
    | .fixed _ => return f
  | _ => return f

/-- Loads options filter by filter, up to the first failure; what was loaded before stays. -/
def initFilters (st : Storage) (ctx : Context) :
    List Filter → StateM Session (Except Error Unit × List Filter)
  | [] => return (.ok (), [])
  | f :: rest => do
    match ← (initFilter st ctx f).run with
    | .error e => return (.error e, f :: rest)
    | .ok g =>
      let (r, gs) ← initFilters st ctx rest
      return (r, g :: gs)

/-- Prepares every filter, once. After a failure the next call starts from the first again. -/
def init (c : Collection) (st : Storage) : StateM Session (Except Error Unit × Collection) := do
  if c.initialized then return (.ok (), c)
  else
    let (r, filters) ← initFilters st c.context c.filters
    match r with
    | .error e => return (.error e, { c with filters })
    | .ok () =>
      Session.log (.collectionReady c.identifier filters.length)
      return (.ok (), { c with filters, initialized := true })

end Collection

end Reports.Filter
