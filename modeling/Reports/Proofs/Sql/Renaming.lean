import Reports.Proofs.Sql.Reader

/-! Binding and renumbering look at names only to tell them apart and to find their values. Two
ways of naming that tell the same names apart give the same result. -/
namespace Reports.Sql

/-- Two ways of writing names down that keep names with a property apart. -/
structure Alike (f g : Name → String) (p : Name → Prop) : Prop where
  left : ∀ a b, p a → p b → f a = f b → a = b
  right : ∀ a b, p a → p b → g a = g b → a = b

namespace Alike

variable {f g : Name → String} {p : Name → Prop} (alike : Alike f g p)

include alike

theorem eq_iff {a b : Name} (ha : p a) (hb : p b) : f a = f b ↔ g a = g b :=
  ⟨fun h => congrArg g (alike.left a b ha hb h), fun h => congrArg f (alike.right a b ha hb h)⟩

theorem rank? {a : Name} (ha : p a) (seen : List (Name × Json)) (known : ∀ e ∈ seen, p e.1) :
    Binding.rank? (f a) (seen.map fun e => (f e.1, e.2)) =
      Binding.rank? (g a) (seen.map fun e => (g e.1, e.2)) := by
  induction seen with
  | nil => rfl
  | cons e rest ih =>
    have later := ih fun x hx => known x (List.mem_cons_of_mem _ hx)
    have same := alike.eq_iff (known e List.mem_cons_self) ha
    simp only [List.map_cons, Binding.rank?, same, later]

/-- Binding gives the same text and the same values, or fails for the same name. -/
theorem resolve (d : Dialect) {params params' : Params}
    (values : ∀ a, p a → params.get? (f a) = params'.get? (g a))
    (unbound : ∀ a, p a → params.get? (f a) = none → f a = g a) (rs : List Read)
    (all : ∀ a, .name a ∈ rs → p a) (seen : List (Name × Json))
    (known : ∀ e ∈ seen, p e.1) :
    Binding.resolve d params (seen.map fun e => (f e.1, e.2)) (rs.map (Binding.reader.write f)) =
      Binding.resolve d params' (seen.map fun e => (g e.1, e.2))
        (rs.map (Binding.reader.write g)) := by
  induction rs generalizing seen with
  | nil => simp [Binding.resolve]
  | cons r rest ih =>
    have allRest : ∀ a, .name a ∈ rest → p a := fun a ha => all a (List.mem_cons_of_mem _ ha)
    cases r with
    | char c =>
      simp only [List.map_cons, Binding.reader, Binding.resolve]
      have later := ih allRest seen known
      simp only [Binding.reader] at later
      rw [later]
    | name a =>
      have ha : p a := all a List.mem_cons_self
      have rank := alike.rank? ha seen known
      have value := values a ha
      simp only [Binding.reader] at ih
      simp only [List.map_cons, Binding.reader, Binding.resolve, String.ofList_toList]
      rw [← rank, ← value]
      cases Binding.rank? (f a) (seen.map fun e => (f e.1, e.2)) with
      | some i => simp only [ih allRest seen known]
      | none =>
        cases found : params.get? (f a) with
        | none => simp only [unbound a ha found]
        | some v =>
          have grown : ∀ e ∈ seen ++ [(a, v)], p e.1 := by
            intro e he
            rcases List.mem_append.mp he with he | he
            · exact known e he
            · rw [List.mem_singleton.mp he]
              exact ha
          have later := ih allRest (seen ++ [(a, v)]) grown
          simp only [List.map_append, List.map_cons, List.map_nil] at later
          simp only [later, List.length_map]

theorem position? {a : Name} (ha : p a) (seen : List Name) (known : ∀ b ∈ seen, p b) :
    CountKey.position? (f a) (seen.map f) = CountKey.position? (g a) (seen.map g) := by
  induction seen with
  | nil => rfl
  | cons b rest ih =>
    have later := ih fun x hx => known x (List.mem_cons_of_mem _ hx)
    have same := alike.eq_iff (known b List.mem_cons_self) ha
    simp only [List.map_cons, CountKey.position?, same, later]

theorem mem_of_position? {a : Name} (ha : p a) {seen : List Name} (known : ∀ b ∈ seen, p b)
    {i : Nat} (found : CountKey.position? (f a) (seen.map f) = some i) : a ∈ seen := by
  induction seen generalizing i with
  | nil => cases found
  | cons b rest ih =>
    by_cases h : f b = f a
    · rw [alike.left b a (known b List.mem_cons_self) ha h]
      exact List.mem_cons_self
    · simp only [List.map_cons, CountKey.position?, h, if_false, Option.map_eq_some_iff] at found
      obtain ⟨j, found, -⟩ := found
      exact List.mem_cons_of_mem _ (ih (fun x hx => known x (List.mem_cons_of_mem _ hx)) found)

theorem renumber (rs : List Read) (all : ∀ a, .name a ∈ rs → p a) (seen : List Name)
    (known : ∀ a ∈ seen, p a) :
    ∃ (text : String) (names : List Name),
      CountKey.renumber (seen.map f) (rs.map (CountKey.reader.write f)) = (text, names.map f) ∧
      CountKey.renumber (seen.map g) (rs.map (CountKey.reader.write g)) = (text, names.map g) ∧
      ∀ a, a ∈ names ↔ a ∈ seen ∨ .name a ∈ rs := by
  induction rs generalizing seen with
  | nil => exact ⟨"", seen, rfl, rfl, by simp⟩
  | cons r rest ih =>
    have allRest : ∀ a, .name a ∈ rest → p a := fun a ha => all a (List.mem_cons_of_mem _ ha)
    simp only [CountKey.reader] at ih
    cases r with
    | char c =>
      obtain ⟨text, names, left, right, mem⟩ := ih allRest seen known
      refine ⟨String.ofList [c] ++ text, names, ?_, ?_, by simpa using mem⟩
      · simp only [List.map_cons, CountKey.reader, CountKey.renumber, left]
      · simp only [List.map_cons, CountKey.reader, CountKey.renumber, right]
    | name a =>
      have ha : p a := all a List.mem_cons_self
      have place := alike.position? ha seen known
      cases found : CountKey.position? (f a) (seen.map f) with
      | some i =>
        obtain ⟨text, names, left, right, mem⟩ := ih allRest seen known
        rw [found] at place
        refine ⟨":_" ++ Text.decimal i ++ text, names, ?_, ?_, ?_⟩
        · simp only [List.map_cons, CountKey.reader, CountKey.renumber,
            String.ofList_toList, found, left]
        · simp only [List.map_cons, CountKey.reader, CountKey.renumber, String.ofList_toList,
            ← place, right]
        · intro b
          have inSeen : a ∈ seen := alike.mem_of_position? ha known found
          rw [mem b, List.mem_cons, Read.name.injEq]
          exact ⟨fun h => h.imp_right Or.inr,
            fun h => h.elim Or.inl fun h => h.elim (fun e => Or.inl (e ▸ inSeen)) Or.inr⟩
      | none =>
        have grown : ∀ b ∈ seen ++ [a], p b := by
          intro b hb
          rcases List.mem_append.mp hb with hb | hb
          · exact known b hb
          · rw [List.mem_singleton.mp hb]
            exact ha
        obtain ⟨text, names, left, right, mem⟩ := ih allRest (seen ++ [a]) grown
        rw [found] at place
        simp only [List.map_append, List.map_cons, List.map_nil] at left right
        refine ⟨":_" ++ Text.decimal seen.length ++ text, names, ?_, ?_, ?_⟩
        · simp only [List.map_cons, CountKey.reader, CountKey.renumber,
            String.ofList_toList, found, left, List.length_map]
        · simp only [List.map_cons, CountKey.reader, CountKey.renumber, String.ofList_toList,
            ← place, right, List.length_map]
        · intro b
          rw [mem b]
          simp [or_assoc]

end Alike

end Reports.Sql
