import Reports.Event
import Reports.Sql.Binding
import Reports.Text.Numeral
import Reports.Text.Basic

/-! A session with a storage: the placeholder names drawn, the calls made and the events logged
so far. A storage is a pure answer to bound statements. -/
namespace Reports

/-- One call of a storage: the statement and, when its placeholders could be bound, its bound
form. -/
structure Call where
  statement : Sql.Statement
  bound : Option Sql.Bound
  deriving Repr

structure Session where
  drawn : Nat := 0
  served : Nat := 0
  calls : List Call := []
  events : List Event := []
  deriving Inhabited

/-- What a session does: it may fail, and what was done before stays done. -/
abbrev Action (α : Type) := ExceptT Error (StateM Session) α

/-- Answers the n-th bound statement, counted from 0, with rows or with a reason to fail. -/
structure Storage where
  dialect : Sql.Dialect
  answer : Nat → Sql.Bound → Except String (List Row)

namespace Session

def log (e : Event) : StateM Session Unit :=
  modify fun s => { s with events := s.events ++ [e] }

def draw {α : Type} (x : Sql.Draw α) : Action α := fun s =>
  let (r, n) := x s.drawn
  (r, { s with drawn := n })

/-- Goes on after a failure, with the failure as a value. -/
def attempt {α : Type} (x : Action α) : Action (Except Error α) := fun s =>
  let (r, s) := x s
  (.ok r, s)

end Session

namespace Storage

/-- Binds a statement and asks the storage. A statement that cannot be bound is not asked. -/
def fetch (st : Storage) (s : Sql.Statement) : Action (List Row) := fun session =>
  match s.bind st.dialect with
  | .error e => (.error e, { session with calls := session.calls ++ [⟨s, none⟩] })
  | .ok bound =>
    let after := { session with
      served := session.served + 1, calls := session.calls ++ [⟨s, some bound⟩] }
    match st.answer session.served bound with
    | .ok rows => (.ok rows, after)
    | .error reason => (.error (.execution reason s.sql s.params), after)

end Storage

/-- A cell as a count: whole and not negative; what is no number counts nothing. -/
def Json.toCount : Json → UInt64
  | .number (.int n) =>
    if fitsUInt64 n then UInt64.ofNat n.toNat
    else (Binary64.ofInt n).toUInt64
  | .number (.float x) => (Binary64.Extended.finite x).toUInt64
  | .string s =>
    match Text.readUInt64 (Text.trim s) with
    | .ok n => n
    | .error _ => 0
  | _ => 0

def countOfRows (rows : List Row) : UInt64 :=
  match rows with
  | [] => 0
  | row :: _ =>
    match row.entries with
    | [] => 0
    | (_, v) :: _ => v.toCount

def Storage.fetchCount (st : Storage) (s : Sql.Statement) : Action UInt64 := do
  return countOfRows (← st.fetch s)

end Reports
