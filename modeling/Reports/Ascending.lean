/-! Entries in ascending order of their keys, each key once. -/
namespace Reports.Ascending

variable {α : Type}

def place (key : String) (value : α) : List (String × α) → List (String × α)
  | [] => [(key, value)]
  | (k, v) :: rest =>
    if key = k then (key, value) :: rest
    else if key < k then (key, value) :: (k, v) :: rest
    else (k, v) :: place key value rest

/-- Puts entries in order; of those with one key the last stays. -/
def ofList (entries : List (String × α)) : List (String × α) :=
  entries.foldl (fun acc e => place e.1 e.2 acc) []

/-- The texts in ascending order, each once. -/
def texts (ts : List String) : List String := (ofList (ts.map fun t => (t, ()))).map Prod.fst

theorem mem_keys_place (key k : String) (value : α) (entries : List (String × α)) :
    k ∈ (place key value entries).map Prod.fst ↔ k = key ∨ k ∈ entries.map Prod.fst := by
  induction entries with
  | nil => simp [place]
  | cons e rest ih =>
    obtain ⟨k', v'⟩ := e
    unfold place
    split
    · next h => subst h; simp
    · split
      · simp
      · simp only [List.map_cons, List.mem_cons, ih]
        exact or_left_comm

theorem mem_of_mem_place {key : String} {value : α} {entries : List (String × α)}
    {e : String × α} (mem : e ∈ place key value entries) :
    e = (key, value) ∨ e ∈ entries := by
  induction entries with
  | nil => exact Or.inl (List.mem_singleton.mp mem)
  | cons first rest ih =>
    unfold place at mem
    split at mem
    · exact (List.mem_cons.mp mem).imp_right (List.mem_cons_of_mem _)
    · split at mem
      · exact List.mem_cons.mp mem
      · rcases List.mem_cons.mp mem with here | later
        · exact Or.inr (here ▸ List.mem_cons_self)
        · exact (ih later).imp_right (List.mem_cons_of_mem _)

theorem mem_of_mem_foldl_place {acc entries : List (String × α)} {e : String × α}
    (mem : e ∈ entries.foldl (fun acc e => place e.1 e.2 acc) acc) :
    e ∈ acc ∨ e ∈ entries := by
  induction entries generalizing acc with
  | nil => exact Or.inl mem
  | cons first rest ih =>
    rcases ih mem with placed | later
    · rcases mem_of_mem_place placed with here | before
      · exact Or.inr (here ▸ List.mem_cons_self)
      · exact Or.inl before
    · exact Or.inr (List.mem_cons_of_mem _ later)

theorem mem_of_mem_ofList {entries : List (String × α)} {e : String × α}
    (mem : e ∈ ofList entries) : e ∈ entries :=
  (mem_of_mem_foldl_place mem).resolve_left List.not_mem_nil

theorem mem_keys_ofList {k : String} {entries : List (String × α)} :
    k ∈ (ofList entries).map Prod.fst ↔ k ∈ entries.map Prod.fst := by
  have fold (acc : List (String × α)) :
      k ∈ (entries.foldl (fun acc e => place e.1 e.2 acc) acc).map Prod.fst ↔
        k ∈ acc.map Prod.fst ∨ k ∈ entries.map Prod.fst := by
    induction entries generalizing acc with
    | nil => simp
    | cons e rest ih =>
      rw [List.foldl_cons, ih, mem_keys_place, List.map_cons, List.mem_cons, or_comm (a := k = e.1),
        or_assoc]
  exact (fold []).trans (or_iff_right List.not_mem_nil)

theorem mem_texts {t : String} {ts : List String} : t ∈ texts ts ↔ t ∈ ts := by
  simp [texts, mem_keys_ofList]

end Reports.Ascending
