import Reports.Json.Access
import Reports.Report.Definition
import Reports.Sqlite.Scratch

/-! A database in which only the tables that filters read have rows. It tells which tables it
has, and answers the options of filters. -/
namespace Reports.Sqlite

inductive Token
  | word (text : String)
  | opened
  | closed
  | comma
  deriving Repr, DecidableEq

namespace Token

/-- A word under way, last character first, and the quote that has to be closed. -/
structure State where
  word : List Char := []
  quote : Option Char := none
  deriving Repr

def flush (word : List Char) : List Token :=
  if word.isEmpty then [] else [Token.word (String.ofList word.reverse)]

def scanner : Text.Scanner State Token where
  step s c :=
    match s.quote with
    | some q => ([], { word := c :: s.word, quote := if c = q then none else some q })
    | none =>
      match c with
      | '(' => (flush s.word ++ [opened], {})
      | ')' => (flush s.word ++ [closed], {})
      | ',' => (flush s.word ++ [comma], {})
      | ' ' => (flush s.word, {})
      | _ =>
        ([], { word := c :: s.word, quote := if c = '\x27' ∨ c = '\x22' then some c else none })
  finish s := flush s.word

def ofSql (sql : String) : List Token := scanner.run {} sql.toList

/-- The tokens up to the parenthesis that closes `depth` open ones, and those after it. -/
def inside (depth : Nat) : List Token → List Token × List Token
  | [] => ([], [])
  | t :: rest =>
    match t, depth with
    | closed, 0 => ([], rest)
    | closed, d + 1 => let (a, b) := inside d rest; (t :: a, b)
    | opened, d => let (a, b) := inside (d + 1) rest; (t :: a, b)
    | _, d => let (a, b) := inside d rest; (t :: a, b)

def sources : List Token → List String
  | word w :: word t :: rest =>
    if w = "FROM" ∨ w = "JOIN" then t :: sources rest else sources (word t :: rest)
  | _ :: rest => sources rest
  | [] => []

/-- The common tables of a statement, with the tables that they read, and the statement itself. -/
def commonTables : Nat → List Token → List (String × List String) × List Token
  | fuel + 1, word name :: word "AS" :: opened :: rest =>
    let (body, rest) := inside 0 rest
    match rest with
    | comma :: rest =>
      let (others, statement) := commonTables fuel rest
      ((name, sources body) :: others, statement)
    | _ => ([(name, sources body)], rest)
  | _, rest => ([], rest)

/-- The stored tables that a statement reads, in the order in which they are looked up: a common
table is looked into where it is read. -/
def storedTables (tokens : List Token) : List String :=
  match tokens with
  | word "WITH" :: rest =>
    let (common, statement) := commonTables rest.length rest
    (sources statement).flatMap fun t => (OrderedMap.lookup t common).getD [t]
  | _ => sources tokens

end Token

structure Catalogue where
  tables : List String := []
  tablePrefix : String := ""
  groups : List (Int × String) := []
  /-- Id, name and whether the category is visible. -/
  categories : List (Int × String × Bool) := []
  deriving Repr, Inhabited

namespace Catalogue

def reportTables : List String :=
  ["user", "groups_members", "groups", "course", "course_categories", "enrol", "user_enrolments"]

/-- Names of tables are compared without regard to case. -/
def sameName (a b : String) : Bool := Text.lower a == Text.lower b

def hasTable (c : Catalogue) (name : String) : Bool :=
  c.tables.any fun t => sameName (c.tablePrefix ++ t) name

def optionLe (a b : Int × String) : Bool :=
  if a.2 = b.2 then decide (a.1 ≤ b.1) else decide (a.2 < b.2)

def optionRows (options : List (Int × String)) : List Row :=
  (options.mergeSort optionLe).map fun o => ⟨[("id", .ofInt o.1), ("name", .string o.2)]⟩

def visibleCategories (c : Catalogue) : List (Int × String) :=
  c.categories.filterMap fun (id, name, visible) => if visible then some (id, name) else none

def asks (c : Catalogue) (sql options : String) : Bool :=
  sameName sql (Sql.TableRef.expand options c.tablePrefix)

/-- The first table that cannot be looked up: one whose name begins with a digit, which is found
as the statement is read, else one that is missing. -/
def badTable? (c : Catalogue) (tokens : List Token) : Option String :=
  ((Token.sources tokens).find? fun t => (t.toList.head?.map Text.isDigit).getD false).or
    ((Token.storedTables tokens).find? fun t => !c.hasTable t)

/-- The first bad table is an error; all tables but those of options are empty. -/
def answer (c : Catalogue) (sql : String) : Except String (List Row) :=
  match c.badTable? (Token.ofSql sql) with
  | some table => .error (noSuchTable table)
  | none =>
    if c.asks sql Report.groupOptions then .ok (optionRows c.groups)
    else if c.asks sql Report.categoryOptions then .ok (optionRows c.visibleCategories)
    else .ok []

def storage (c : Catalogue) : Storage where
  dialect := .sqlite
  answer _ bound := c.answer bound.sql

def blank : Catalogue := {}

def groupOf : Json → Option (Int × String)
  | .array [id, .string name] => id.int?.map fun id => (id, name)
  | _ => none

def categoryOf : Json → Option (Int × String × Bool)
  | .array [id, .string name, visible] =>
    id.int?.map fun id => (id, name, match Value.ofJson visible with
      | .integer 1 => true
      | _ => false)
  | _ => none

def ofJson (j : Json) : Option Catalogue := do
  let missing ← j.listOf "missing" Json.asString?
  return {
    tables := reportTables.filter fun t => !missing.contains t
    tablePrefix := ← j.strD "prefix" ""
    groups := ← j.listOf "groups" groupOf
    categories := ← j.listOf "categories" categoryOf }

end Catalogue

end Reports.Sqlite
