import Reports.Proofs.Session

/-! What a session says to a storage and what it is told. -/
namespace Reports

open Sql (Statement)

/-- A statement that was asked, and the rows or the error that came back. -/
structure Exchange where
  statement : Statement
  reply : Except Error (List Row)

namespace Storage

/-- What comes back for a statement after `n` bound ones. A statement that cannot be bound comes
back at once. -/
def reply (st : Storage) (n : Nat) (x : Statement) : Except Error (List Row) :=
  match x.bind st.dialect with
  | .error e => .error e
  | .ok bound =>
    match st.answer n bound with
    | .ok rows => .ok rows
    | .error reason => .error (.execution reason x.sql x.params)

def next (st : Storage) (n : Nat) (x : Statement) : Nat :=
  match x.bind st.dialect with
  | .error _ => n
  | .ok _ => n + 1

def past (st : Storage) (n : Nat) (xs : List Exchange) : Nat :=
  xs.foldl (fun n x => st.next n x.statement) n

def call (st : Storage) (x : Statement) : Call := ⟨x, (x.bind st.dialect).toOption⟩

/-- The replies are those of the storage, to one statement after the other. -/
def Answered (st : Storage) : Nat → List Exchange → Prop
  | _, [] => True
  | n, x :: rest => x.reply = st.reply n x.statement ∧ st.Answered (st.next n x.statement) rest

variable {st : Storage}

theorem answered_append {n : Nat} {xs ys : List Exchange} :
    st.Answered n (xs ++ ys) ↔ st.Answered n xs ∧ st.Answered (st.past n xs) ys := by
  induction xs generalizing n with
  | nil => simp [Answered, past]
  | cons x rest ih =>
    have later : st.past n (x :: rest) = st.past (st.next n x.statement) rest := rfl
    simp only [List.cons_append, Answered, later, ih, and_assoc]

theorem past_append (n : Nat) (xs ys : List Exchange) :
    st.past n (xs ++ ys) = st.past (st.past n xs) ys := List.foldl_append

end Storage

namespace Session

structure Silent (s s' : Session) : Prop where
  calls : s'.calls = s.calls
  served : s'.served = s.served

/-- What was asked between two moments, with the replies. -/
structure Converses (st : Storage) (s : Session) (xs : List Exchange) (s' : Session) : Prop where
  calls : s'.calls = s.calls ++ xs.map fun x => st.call x.statement
  served : s'.served = st.past s.served xs
  answered : st.Answered s.served xs

namespace Silent

theorem refl (s : Session) : s.Silent s := ⟨rfl, rfl⟩

theorem trans {s s' s'' : Session} (h : s.Silent s') (h' : s'.Silent s'') : s.Silent s'' :=
  ⟨h'.calls.trans h.calls, h'.served.trans h.served⟩

end Silent

def Rule.quiet : Rule where
  Goes := Silent
  Fails _ := True
  refl := .refl
  trans := .trans
  heard _ _ := ⟨rfl, rfl⟩

namespace Converses

variable {st : Storage} {s s' s'' : Session} {xs ys : List Exchange}

theorem of_silent (h : s.Silent s') : s.Converses st [] s' :=
  ⟨h.calls.trans (List.append_nil _).symm, h.served, trivial⟩

theorem trans (h : s.Converses st xs s') (h' : s'.Converses st ys s'') :
    s.Converses st (xs ++ ys) s'' := by
  constructor
  · rw [h'.calls, h.calls, List.map_append, List.append_assoc]
  · rw [h'.served, h.served, Storage.past_append]
  · rw [Storage.answered_append, ← h.served]
    exact ⟨h.answered, h'.answered⟩

theorem before (h : s'.Converses st xs s'') (silent : s.Silent s') : s.Converses st xs s'' :=
  (of_silent silent).trans h

theorem after (h : s.Converses st xs s') (silent : s'.Silent s'') : s.Converses st xs s'' := by
  simpa using h.trans (of_silent silent)

end Converses

end Session

namespace Action

variable {α : Type}

abbrev Quiet (x : Action α) : Prop := x.Obeys .quiet

theorem Quiet.draw (x : Sql.Draw α) : Quiet (Session.draw x) :=
  fun _ => ⟨⟨rfl, rfl⟩, fun _ _ => trivial⟩

theorem converses_fetch (st : Storage) (x : Statement) (s : Session) :
    s.Converses st [⟨x, (st.fetch x s).1⟩] (st.fetch x s).2 := by
  rcases bound : x.bind st.dialect with e | b
  · constructor
    · simp [Storage.fetch, Storage.call, bound, Except.toOption]
    · simp [Storage.fetch, Storage.past, Storage.next, bound]
    · simp [Storage.fetch, Storage.Answered, Storage.reply, bound]
  · rcases answered : st.answer s.served b with reason | rows
    · constructor
      · simp [Storage.fetch, Storage.call, bound, answered, Except.toOption]
      · simp [Storage.fetch, Storage.past, Storage.next, bound, answered]
      · simp [Storage.fetch, Storage.Answered, Storage.reply, bound, answered]
    · constructor
      · simp [Storage.fetch, Storage.call, bound, answered, Except.toOption]
      · simp [Storage.fetch, Storage.past, Storage.next, bound, answered]
      · simp [Storage.fetch, Storage.Answered, Storage.reply, bound, answered]

theorem converses_of_fetch {st : Storage} {x : Statement} {s s' : Session}
    {reply : Except Error (List Row)} (fetched : st.fetch x s = (reply, s')) :
    s.Converses st [⟨x, reply⟩] s' := by
  have asked := converses_fetch st x s
  rwa [fetched] at asked

end Action

end Reports
