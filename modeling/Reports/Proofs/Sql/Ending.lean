import Reports.Proofs.Effect
import Reports.Proofs.Sql.PlaceholderName
import Reports.Text.Scanner
import Reports.Sql.Binding
import Reports.Sql.Rendering

/-! How statements end: what cuts their rows comes last, and neither putting tables for references
nor binding changes it. -/
namespace Reports.Sql

open Reports.Text (decimal)

/-- Characters that mean nothing to the scanners of statements. -/
def Inert (c : Char) : Prop := c ≠ ':' ∧ c ≠ '\x7b' ∧ TableRef.isQuote c = false

instance (c : Char) : Decidable (Inert c) := inferInstanceAs (Decidable (_ ∧ _ ∧ _))

theorem TableRef.expandWith_ending (table : String → String) (a : String) {cs : List Char}
    (inert : ∀ c ∈ cs, Inert c) :
    ∃ head, expandWith table (a ++ String.ofList (' ' :: cs)) = head ++
    String.ofList (' ' :: cs) := by
  let settled (s : State) : Prop := ∀ name, s ≠ .braced name
  have copies (s : State) (c : Char) (here : settled s) (inert : Inert c) :
      ((scanner table).step s c).1 = [c] ∧ settled ((scanner table).step s c).2 := by
    obtain ⟨-, brace, quote⟩ := inert
    cases s with
    | plain => simp [scanner, stepPlain, brace, quote, settled]
    | quoted q =>
      refine ⟨rfl, ?_⟩
      simp only [scanner, settled]
      split <;> simp
    | braced name => exact absurd rfl (here name)
  have ends (s : State) (here : settled s) : (scanner table).finish s = [] := by
    cases s with
    | plain => rfl
    | quoted q => rfl
    | braced name => exact absurd rfl (here name)
  have settles (s : State) :
      ∃ held, ((scanner table).step s ' ').1 = held ++ [' '] ∧
      settled ((scanner table).step s ' ').2 := by
    have blank : Inert ' ' := ⟨by decide, by decide, by decide⟩
    cases s with
    | plain => exact ⟨[], copies .plain ' ' (by simp [settled]) blank⟩
    | quoted q => exact ⟨[], copies (.quoted q) ' ' (by simp [settled]) blank⟩
    | braced name =>
      have stops : continues name ' ' = false := by
        unfold continues
        split <;> decide
      exact ⟨held name, by simp [scanner, stops, stepPlain, isQuote, settled]⟩
  obtain ⟨head, same⟩ :=
    Text.Scanner.run_ending (f := fun c => c) copies ends settles .plain a.toList inert
  refine ⟨String.ofList head, String.toList_inj.mp ?_⟩
  simpa [expandWith] using same

theorem Binding.tokens_ending (a : String) {cs : List Char} (inert : ∀ c ∈ cs, Inert c) :
    ∃ head, tokens (a ++ String.ofList (' ' :: cs)) = head ++ (' ' :: cs).map .char := by
  let settled (s : State) : Prop := s = .plain ∨ ∃ q, s = .quoted q
  have copies (s : State) (c : Char) (here : settled s) (inert : Inert c) :
      (scanner.step s c).1 = [.char c] ∧ settled (scanner.step s c).2 := by
    obtain ⟨colon, -, quote⟩ := inert
    have quotes : ¬ (c = '\x27' ∨ c = '\x22') := by simpa [TableRef.isQuote] using quote
    rcases here with rfl | ⟨q, rfl⟩
    · simp [scanner, stepPlain, colon, quotes, settled]
    · refine ⟨rfl, ?_⟩
      simp only [scanner, settled]
      split <;> simp
  have ends (s : State) (here : settled s) : scanner.finish s = [] := by
    rcases here with rfl | ⟨q, rfl⟩ <;> rfl
  have settles (s : State) :
      ∃ held, (scanner.step s ' ').1 = held ++ [.char ' '] ∧
      settled (scanner.step s ' ').2 := by
    have blank : Inert ' ' := ⟨by decide, by decide, by decide⟩
    cases s with
    | plain => exact ⟨[], copies .plain ' ' (Or.inl rfl) blank⟩
    | quoted q => exact ⟨[], copies (.quoted q) ' ' (Or.inr ⟨q, rfl⟩) blank⟩
    | colon => exact ⟨[.char ':'], rfl, Or.inl rfl⟩
    | name acc => exact ⟨[.parameter acc.reverse], rfl, Or.inl rfl⟩
  obtain ⟨head, same⟩ := Text.Scanner.run_ending copies ends settles .plain a.toList inert
  exact ⟨head, by simpa [tokens] using same⟩

theorem Binding.resolve_chars (d : Dialect) (params : Params) (seen : List (String × Json))
    (cs : List Char) :
    resolve d params seen (cs.map .char) = .ok ⟨String.ofList cs, seen.map Prod.snd⟩ := by
  induction cs with
  | nil => rfl
  | cons c rest ih =>
    rw [List.map_cons, resolve, ih]
    simp [bind, Except.bind, pure, Except.pure]

theorem Binding.resolve_ending {d : Dialect} {params : Params} {seen : List (String × Json)}
    {ts : List Token} {cs : List Char} {b : Bound}
    (bound : resolve d params seen (ts ++ cs.map .char) = .ok b) :
    ∃ head, b.sql = head ++ String.ofList cs := by
  induction ts generalizing seen b with
  | nil =>
    rw [List.nil_append, resolve_chars] at bound
    cases bound
    exact ⟨"", (String.empty_append).symm⟩
  | cons t rest ih =>
    -- Every token is a text before what the rest resolves to.
    have later {seen : List (String × Json)} {text : String}
        (bound : (do
          let b ← resolve d params seen (rest ++ cs.map .char)
          return { b with sql := text ++ b.sql }) = Except.ok b) :
        ∃ head, b.sql = head ++ String.ofList cs := by
      cases inner : resolve d params seen (rest ++ cs.map .char) with
      | error e =>
        rw [inner] at bound
        cases bound
      | ok b' =>
        rw [inner] at bound
        cases bound
        obtain ⟨head, same⟩ := ih inner
        exact ⟨text ++ head, by rw [same, String.append_assoc]⟩
    cases t with
    | char c => exact later bound
    | parameter name =>
      rw [List.cons_append, resolve] at bound
      split at bound
      · exact later bound
      · split at bound
        · cases bound
        · exact later bound

theorem inert_decimal {n : Nat} {c : Char} (mem : c ∈ (decimal n).toList) : Inert c := by
  have digit := Text.isDigit_of_mem_decimal mem
  refine ⟨?_, ?_, Bool.eq_false_iff.mpr fun quote => ?_⟩
  · rintro rfl
    exact absurd digit (by decide)
  · rintro rfl
    exact absurd digit (by decide)
  · rw [TableRef.isQuote, Bool.or_eq_true, beq_iff_eq, beq_iff_eq] at quote
    rcases quote with rfl | rfl <;> exact absurd digit (by decide)

/-- The end of a statement that gives some rows from some row on. -/
def window (limit offset : Nat) : String :=
  " LIMIT " ++ decimal limit ++ if offset = 0 then "" else " OFFSET " ++ decimal offset

theorem window_eq (limit offset : Nat) :
    ∃ cs, window limit offset = String.ofList (' ' :: cs) ∧ ∀ c ∈ cs, Inert c := by
  have limitWord : ∀ c ∈ "LIMIT ".toList, Inert c := Text.forall_of_all (by decide)
  have offsetWord : ∀ c ∈ " OFFSET ".toList, Inert c := Text.forall_of_all (by decide)
  refine ⟨"LIMIT ".toList ++ (decimal limit).toList ++
    (if offset = 0 then "" else " OFFSET " ++ decimal offset).toList, ?_, ?_⟩
  · apply String.toList_inj.mp
    simp [window]
  · intro c mem
    rcases List.mem_append.mp mem with mem | mem
    · rcases List.mem_append.mp mem with mem | mem
      · exact limitWord c mem
      · exact inert_decimal mem
    · split at mem
      · cases mem
      · rw [String.toList_append] at mem
        rcases List.mem_append.mp mem with mem | mem
        · exact offsetWord c mem
        · exact inert_decimal mem

theorem limitSql_of_limit {c : Clauses} (limited : c.limit ≠ 0) (d : Dialect) :
    c.limitSql d = window c.limit.toNat c.offset.toNat := by
  have offset : c.offset.toNat = 0 ↔ c.offset = 0 := by
    rw [← UInt64.toNat_inj]
    rfl
  simp only [Clauses.limitSql, if_neg limited, Dialect.limitOffset, window, offset]
  rw [if_neg (by simp), ← String.append_assoc, ← String.append_assoc]
  rfl

theorem assemble_ending {c : Clauses} {d : Dialect} {source : Statement} {n m : Nat} {x : Statement}
    (limited : c.limit ≠ 0) (assembled : c.assemble d source n = (.ok x, m)) :
    ∃ head, x.sql = head ++ window c.limit.toNat c.offset.toNat := by
  obtain ⟨cs, same, inert⟩ := window_eq c.limit.toNat c.offset.toNat
  have expanded (condition : String) : ∃ head, c.expandRefs (c.text d source.sql condition) =
      head ++ window c.limit.toNat c.offset.toNat := by
    rw [Clauses.expandRefs, Clauses.text, limitSql_of_limit limited, same]
    exact TableRef.expandWith_ending _ _ inert
  obtain ⟨body, k, -, written⟩ := Effect.of_bind_ok assembled
  cases body with
  | none =>
    obtain rfl := Except.ok.inj (congrArg Prod.fst written)
    exact expanded ""
  | some condition =>
    obtain rfl := Except.ok.inj (congrArg Prod.fst written)
    exact expanded (" WHERE " ++ condition.sql)

theorem render_ending {q : Query} {d : Dialect} {n m : Nat} {x : Statement}
    (limited : q.limit ≠ 0) (rendered : q.render d n = (.ok x, m)) :
    ∃ head, x.sql = head ++ window q.limit.toNat q.offset.toNat := by
  rw [Query.render] at rendered
  cases source : q.source with
  | none =>
    rw [source] at rendered
    cases rendered
  | table name correlation =>
    rw [source] at rendered
    exact assemble_ending limited rendered
  | derived inner source' correlation =>
    rw [source, Clauses.renderOver] at rendered
    obtain ⟨y, k, -, assembled⟩ := Effect.of_bind_ok rendered
    exact assemble_ending limited assembled

theorem bind_ending {x : Statement} {d : Dialect} {b : Bound} {head : String} {limit offset : Nat}
    (ends : x.sql = head ++ window limit offset) (bound : x.bind d = .ok b) :
    ∃ head, b.sql = head ++ window limit offset := by
  obtain ⟨cs, same, inert⟩ := window_eq limit offset
  rw [same] at ends ⊢
  obtain ⟨ts, tokens⟩ := Binding.tokens_ending head inert
  rw [Statement.bind, ends, tokens] at bound
  exact Binding.resolve_ending bound

end Reports.Sql
