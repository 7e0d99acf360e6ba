import Reports.Error
import Reports.Text.Basic

/-! Statements and templates. A template is SQL text with a hole for each value; filling it
draws a placeholder name for every hole, in order, from a counter that only goes up. -/
namespace Reports.Sql

/-- SQL text with named placeholders, and the values bound to the names. -/
structure Statement where
  sql : String
  params : Params := ∅
  deriving Repr, Inhabited

inductive Piece
  | text (sql : String)
  | hole (value : Json)
  deriving Repr, Inhabited

/-- Pieces, and values for the placeholders that the text itself names. -/
structure Template where
  pieces : List Piece
  params : Params := ∅
  deriving Repr, Inhabited

/-- The n-th placeholder name drawn, without its colon. -/
def placeholderName (n : Nat) : String := "qp" ++ Text.decimal n

/-- What needs placeholder names: it may fail, and names drawn before stay drawn. -/
abbrev Draw (α : Type) := ExceptT Error (StateM Nat) α

namespace Template

def ofText (sql : String) (params : Params := ∅) : Template := ⟨[.text sql], params⟩

def fillPieces (n : Nat) : List Piece → Statement × Nat
  | [] => (⟨"", ∅⟩, n)
  | .text s :: rest =>
    let (st, m) := fillPieces n rest
    (⟨s ++ st.sql, st.params⟩, m)
  | .hole v :: rest =>
    let name := placeholderName (n + 1)
    let (st, m) := fillPieces (n + 1) rest
    (⟨":" ++ name ++ st.sql, ⟨(name, v) :: st.params.entries⟩⟩, m)

def fill (t : Template) : Draw Statement := fun n =>
  let (st, m) := fillPieces n t.pieces
  (.ok ⟨st.sql, st.params.merge t.params⟩, m)

def text (t : Template) : String :=
  t.pieces.foldl (fun acc p => match p with
    | .text s => acc ++ s
    | .hole _ => acc) ""

end Template

end Reports.Sql
