/-! Finite maps that remember the order in which their keys were first written.
Writing a key that is present keeps its place and replaces its value; a key that was
erased and written again goes to the end. -/
namespace Reports

structure OrderedMap (κ : Type) (α : Type) where
  entries : List (κ × α) := []
  deriving Repr, DecidableEq

namespace OrderedMap

variable {κ α β : Type}

def empty : OrderedMap κ α := ⟨[]⟩

instance : EmptyCollection (OrderedMap κ α) := ⟨empty⟩
instance : Inhabited (OrderedMap κ α) := ⟨empty⟩

def keys (m : OrderedMap κ α) : List κ := m.entries.map Prod.fst

def values (m : OrderedMap κ α) : List α := m.entries.map Prod.snd

def size (m : OrderedMap κ α) : Nat := m.entries.length

def isEmpty (m : OrderedMap κ α) : Bool := m.entries.isEmpty

def map (f : α → β) (m : OrderedMap κ α) : OrderedMap κ β :=
  ⟨m.entries.map fun e => (e.1, f e.2)⟩

variable [DecidableEq κ]

def lookup (k : κ) : List (κ × α) → Option α
  | [] => none
  | (k', v) :: rest => if k' = k then some v else lookup k rest

/-- Replaces the value of an existing key where it stands; a new key goes to the end. -/
def write (k : κ) (v : α) : List (κ × α) → List (κ × α)
  | [] => [(k, v)]
  | (k', v') :: rest => if k' = k then (k, v) :: rest else (k', v') :: write k v rest

def get? (m : OrderedMap κ α) (k : κ) : Option α := lookup k m.entries

def contains (m : OrderedMap κ α) (k : κ) : Bool := (m.get? k).isSome

def insert (m : OrderedMap κ α) (k : κ) (v : α) : OrderedMap κ α := ⟨write k v m.entries⟩

def erase (m : OrderedMap κ α) (k : κ) : OrderedMap κ α :=
  ⟨m.entries.filter fun e => decide (e.1 ≠ k)⟩

/-- Writes the entries of `n` after those of `m`; where both have a key, `n` decides. -/
def merge (m n : OrderedMap κ α) : OrderedMap κ α :=
  n.entries.foldl (fun acc e => acc.insert e.1 e.2) m

def ofList (es : List (κ × α)) : OrderedMap κ α :=
  es.foldl (fun acc e => acc.insert e.1 e.2) empty

@[simp] theorem get?_empty (k : κ) : (empty : OrderedMap κ α).get? k = none := rfl

theorem lookup_write (k j : κ) (v : α) (es : List (κ × α)) :
    lookup j (write k v es) = if k = j then some v else lookup j es := by
  induction es with
  | nil => simp [write, lookup]
  | cons e rest ih =>
    obtain ⟨k', v'⟩ := e
    by_cases h : k' = k
    · subst h
      by_cases hj : k' = j <;> simp [write, lookup, hj]
    · by_cases hj : k' = j
      · subst hj
        have h' : k ≠ k' := fun e => h e.symm
        simp [write, lookup, h, h']
      · simp [write, lookup, h, hj, ih]

@[simp] theorem get?_insert (m : OrderedMap κ α) (k j : κ) (v : α) :
    (m.insert k v).get? j = if k = j then some v else m.get? j :=
  lookup_write k j v m.entries

theorem keys_insert (m : OrderedMap κ α) (k : κ) (v : α) :
    (m.insert k v).keys = if k ∈ m.keys then m.keys else m.keys ++ [k] := by
  obtain ⟨es⟩ := m
  simp only [insert, keys]
  induction es with
  | nil => simp [write]
  | cons e rest ih =>
    obtain ⟨k', v'⟩ := e
    by_cases h : k' = k
    · simp [write, h]
    · have h' : k ≠ k' := fun e => h e.symm
      by_cases hk : k ∈ rest.map Prod.fst
      · simp only [write, h, List.map_cons, if_false, ih]
        simp only [List.mem_cons, hk, or_true, if_true]
      · simp only [write, h, List.map_cons, if_false, ih]
        simp only [List.mem_cons, h', hk, or_self, if_false, List.cons_append]

end OrderedMap

end Reports
