import Reports.Text.Basic

/-! The words of a query: comparison operators, conjunctions, kinds of join, directions. -/
namespace Reports.Sql

/-- Unknown operator names are kept, so that a query can be put together before every
predicate is valid. -/
inductive Operator
  | equal
  | notEqual
  | lessThan
  | greaterThan
  | lessOrEqual
  | greaterOrEqual
  | inList
  | notInList
  | inQuery
  | notInQuery
  | like
  | likeWildcard
  | custom
  | unsupported (name : String)
  deriving Repr, DecidableEq, Inhabited

namespace Operator

def name : Operator → String
  | equal => "equal"
  | notEqual => "not_equal"
  | lessThan => "lt"
  | greaterThan => "gt"
  | lessOrEqual => "lte"
  | greaterOrEqual => "gte"
  | inList => "in"
  | notInList => "not_in"
  | inQuery => "in_query"
  | notInQuery => "not_in_query"
  | like => "like"
  | likeWildcard => "like_wildcard"
  | custom => "custom"
  | unsupported name => name

def display (op : Operator) : String := Text.upper op.name

def isSupported : Operator → Bool
  | unsupported _ => false
  | _ => true

def symbol? : Operator → Option String
  | equal => some "="
  | notEqual => some "<>"
  | lessThan => some "<"
  | greaterThan => some ">"
  | lessOrEqual => some "<="
  | greaterOrEqual => some ">="
  | _ => none

/-- Names are read without regard to case and surrounding blanks. -/
def read (name : String) : Operator :=
  match Text.lower (Text.trim name) with
  | "equal" | "=" | "eq" => equal
  | "not_equal" | "<>" | "!=" | "neq" => notEqual
  | "lt" | "<" | "less_than" => lessThan
  | "gt" | ">" | "greater_than" => greaterThan
  | "lte" | "<=" | "less_or_equal" => lessOrEqual
  | "gte" | ">=" | "greater_or_equal" => greaterOrEqual
  | "in" => inList
  | "not_in" => notInList
  | "in_query" => inQuery
  | "not_in_query" => notInQuery
  | "like" => like
  | "like_wildcard" => likeWildcard
  | "custom" => custom
  | _ => unsupported name

end Operator

/-- How a predicate attaches to those before it. -/
inductive Conjunction
  | and
  | or
  deriving Repr, DecidableEq, Inhabited

namespace Conjunction

def sql : Conjunction → String
  | and => "AND"
  | or => "OR"

def name : Conjunction → String
  | and => "and"
  | or => "or"

def ofName? : String → Option Conjunction
  | "and" => some and
  | "or" => some or
  | _ => none

end Conjunction

inductive JoinKind
  | inner
  | left
  | right
  deriving Repr, DecidableEq, Inhabited

namespace JoinKind

def sql : JoinKind → String
  | inner => "JOIN"
  | left => "LEFT JOIN"
  | right => "RIGHT JOIN"

def name : JoinKind → String
  | inner => "inner"
  | left => "left"
  | right => "right"

def ofName? : String → Option JoinKind
  | "inner" => some inner
  | "left" => some left
  | "right" => some right
  | _ => none

end JoinKind

inductive Direction
  | asc
  | desc
  deriving Repr, DecidableEq, Inhabited

namespace Direction

def sql : Direction → String
  | asc => "ASC"
  | desc => "DESC"

def name : Direction → String
  | asc => "asc"
  | desc => "desc"

def reversed : Direction → Direction
  | asc => desc
  | desc => asc

def ofName? : String → Option Direction
  | "asc" => some asc
  | "desc" => some desc
  | _ => none

/-- Directions are read without regard to case and surrounding blanks. -/
def read? (text : String) : Option Direction := ofName? (Text.lower (Text.trim text))

end Direction

end Reports.Sql
