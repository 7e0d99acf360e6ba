import Reports.Proofs.Sql.CounterIndependence
import Reports.Proofs.Sql.Counting
import Reports.Proofs.Sql.Grammar
import Reports.Proofs.Sql.LegibleKey

/-! Counting with a memo. Over calls that share one, every entry stands for a statement with its
key, and keeps its count; so a count that the storage would give is the one that is served. -/
namespace Reports

def Storage.fixed (d : Sql.Dialect) (answer : Sql.Bound → Except String (List Row)) : Storage :=
  ⟨d, fun _ => answer⟩

namespace Sql

open CountKey (identity)

open Query (counted)

theorem reply_fixed {d : Dialect} {answer : Bound → Except String (List Row)} {n : Nat}
    {x : Statement} {rows : List Row} : (Storage.fixed d answer).reply n x = .ok rows ↔
      ∃ b, x.bind d = .ok b ∧ answer b = .ok rows := by
  have dialect : (Storage.fixed d answer).dialect = d := rfl
  rw [Storage.reply, dialect]
  cases bound : x.bind d with
  | error e => simp
  | ok b =>
    have answers : (Storage.fixed d answer).answer n b = answer b := rfl
    dsimp only
    rw [answers]
    cases answered : answer b <;> simp [answered]

/-- If the name is written by hand it is not still to be drawn. -/
def Name.Passed (n : Nat) : Name → Prop
  | .drawn _ => True
  | .written name => ∀ k, name = placeholderName k → k ≤ n

theorem Name.Passed.clear {n : Nat} {a : Name} (passed : a.Passed n) : a.Clear (counted n) := by
  cases a with
  | drawn i => trivial
  | written name =>
    intro i same
    have le := passed _ same
    simp only [counted] at le
    omega

theorem Outline.legible_fill {o : Outline} {number : Nat → Nat} : (o.fill number).Legible ↔
    Legible .plain (o.text.fill number) ∧ ∀ a ∈ o.params.keys,
    '\x00' ∉ (a.text number).toList := by
  have text : (o.fill number).sql.toList = o.text.fill number := String.toList_ofList
  have names : (o.fill number).params.keys = o.params.keys.map (Name.text number) :=
    OrderedMap.keys_mapKeys _ _
  constructor
  · intro legible
    refine ⟨text ▸ legible.text, fun a mem => legible.names _ ?_⟩
    rw [names]
    exact List.mem_map_of_mem mem
  · rintro ⟨legible, whole⟩
    refine ⟨text.symm ▸ legible, fun name mem => ?_⟩
    rw [names] at mem
    obtain ⟨a, given, rfl⟩ := List.mem_map.mp mem
    exact whole a given

theorem Binding.outcome_of_contains (d : Dialect) {ls : List Lexeme} {params : Params}
    (valued : (placeholders ls).all params.contains = true) : Binding.outcome d ls params =
      .ok ⟨String.ofList (ls.flatMap (Lexeme.bound d (placeholders ls).eraseDups)),
        (placeholders ls).eraseDups.map (Binding.given params)⟩ := by
  have missing : ((placeholders ls).find? fun n => !params.contains n) = none := by
    simpa using valued
  rw [Binding.outcome, missing]

/-- A count that is asked for at some moment. -/
structure CountCall where
  query : Query
  unique : Bool
  session : Session

namespace CountCall

def derived (c : CountCall) : Query := Count.derive c.query c.unique

/-- What the storage is asked for the derived statement of a call, if it renders and can be
bound. -/
def asked (d : Dialect) (c : CountCall) : Option Bound :=
  match c.derived.render d c.session.drawn with
  | (.ok x, _) => (x.bind d).toOption
  | (.error _, _) => none

def run (st : Storage) (c : CountCall) (memo : CountMemo) :
    Except Error (UInt64 × CountMemo) × Session :=
  executeCount st c.query c.unique memo c.session

def next (st : Storage) (memo : CountMemo) (c : CountCall) : CountMemo :=
  match (c.run st memo).1 with
  | .ok (_, memo') => memo'
  | .error _ => memo

def memoOf (st : Storage) (digest : String → String) (calls : List CountCall) : CountMemo :=
  calls.foldl (next st) ⟨digest, ∅⟩

/-- What the derived statement of a call has to look like: its drawn placeholders are found as
wholes, names written by hand were passed by the counter, and nothing else can be mistaken for
either. -/
structure Careful (d : Dialect) (c : CountCall) : Prop where
  parted : ∀ o h, c.derived.outline d = .ok (o, h) → o.text.Parted .plain
  passed : ∀ name, c.derived.Writes d name → ∀ k, name = placeholderName k →
    k ≤ c.session.drawn
  legible : ∀ x m, c.derived.render d c.session.drawn = (.ok x, m) → x.Legible

instance {ε α : Type} (x : Except ε α) (p : α → Prop) [DecidablePred p] :
    Decidable (∀ a, x = .ok a → p a) :=
  match x with
  | .error _ => isTrue fun _ same => nomatch same
  | .ok a => decidable_of_iff (p a) ⟨fun h _ same => Except.ok.inj same ▸ h, fun h => h a rfl⟩

def numberOf (name : String) : Nat := Nat.ofDigitChars 10 (name.toList.drop 2) 0

theorem numberOf_placeholderName (n : Nat) : numberOf (placeholderName n) = n := by
  rw [numberOf, placeholderName_toList]
  simp [Text.decimal]

instance (n : Nat) : DecidablePred (Name.Passed n) := fun a =>
  match a with
  | .drawn _ => inferInstanceAs (Decidable True)
  | .written name =>
    decidable_of_iff (name = placeholderName (numberOf name) → numberOf name ≤ n) <| by
      constructor
      · rintro h k rfl
        rw [numberOf_placeholderName] at h
        exact h rfl
      · exact fun h => h _

section

variable {d : Dialect} {answer : Bound → Except String (List Row)} {digest : String → String}
  {c c' : CountCall} {memo : CountMemo} {x x' : Statement} {m m' : Nat}

theorem render_of_passed {o : Outline} {h : Nat} (outlined : c.derived.outline d = .ok (o, h))
    (passed : ∀ a ∈ o.params.keys, a.Passed c.session.drawn) :
    c.derived.render d c.session.drawn =
      (.ok (o.fill (counted c.session.drawn)), c.session.drawn + h) :=
  Query.render_ok outlined fun a mem => (passed a mem).clear

theorem exists_outline (rendered : c.derived.render d c.session.drawn = (.ok x, m)) :
    ∃ o h, c.derived.outline d = .ok (o, h) := by
  cases outlined : c.derived.outline d with
  | error e =>
    have failed := Query.render_error outlined c.session.drawn
    rw [rendered] at failed
    cases failed
  | ok result => exact ⟨result.1, result.2, rfl⟩

/-- Whether a call is careful is seen from its outline. -/
theorem careful_iff : c.Careful d ↔ ∀ r, c.derived.outline d = .ok r →
    r.1.text.Parted .plain ∧ (∀ a ∈ r.1.names, a.Passed c.session.drawn) ∧
      Legible .plain (r.1.text.fill (counted c.session.drawn)) ∧
      ∀ a ∈ r.1.params.keys, '\x00' ∉ (a.text (counted c.session.drawn)).toList := by
  have keys (o : Outline) (passed : ∀ a ∈ o.names, a.Passed c.session.drawn) :
      ∀ a ∈ o.params.keys, a.Passed c.session.drawn := fun a mem =>
    passed a (Outline.mem_names.mpr (Or.inl mem))
  constructor
  · rintro careful ⟨o, h⟩ outlined
    have passed : ∀ a ∈ o.names, a.Passed c.session.drawn := by
      intro a mem
      cases a with
      | drawn i => trivial
      | written name => exact careful.passed name ⟨o, h, outlined, mem⟩
    have legible := careful.legible _ _ (render_of_passed outlined (keys o passed))
    exact ⟨careful.parted o h outlined, passed, Outline.legible_fill.mp legible⟩
  · intro outlines
    refine ⟨fun o h outlined => (outlines ⟨o, h⟩ outlined).1, ?_, fun x m rendered => ?_⟩
    · rintro name ⟨o, h, outlined, mem⟩
      exact (outlines ⟨o, h⟩ outlined).2.1 (.written name) mem
    · obtain ⟨o, h, outlined⟩ := exists_outline rendered
      obtain ⟨-, passed, legible⟩ := outlines ⟨o, h⟩ outlined
      rw [render_of_passed outlined (keys o passed)] at rendered
      cases rendered
      exact Outline.legible_fill.mpr legible

instance (d : Dialect) : DecidablePred (Careful d) := fun _ => decidable_of_iff _ careful_iff.symm

def spoken (d : Dialect) (c : CountCall) : Option (List Char × Params) :=
  (c.derived.outline d).toOption.bind fun (o, _) =>
    if ∀ a ∈ o.params.keys, a.Passed c.session.drawn then
      some (o.text.fill (counted c.session.drawn),
        o.params.mapKeys (Name.text (counted c.session.drawn)))
    else none

theorem render_of_spoken {cs : List Char} {params : Params}
    (spoken : c.spoken d = some (cs, params)) :
    ∃ m, c.derived.render d c.session.drawn = (.ok ⟨String.ofList cs, params⟩, m) := by
  rw [CountCall.spoken] at spoken
  rcases outlined : c.derived.outline d with e | ⟨o, h⟩
  · rw [outlined] at spoken
    cases spoken
  · rw [outlined] at spoken
    simp only [Except.toOption, Option.bind_some, Option.ite_none_right_eq_some] at spoken
    obtain ⟨passed, same⟩ := spoken
    cases same
    exact ⟨_, render_of_passed outlined passed⟩

theorem asked_of_spoken {cs : List Char} {params : Params}
    (spoken : c.spoken d = some (cs, params)) :
    c.asked d = (Binding.outcome d (lexemes cs) params).toOption := by
  obtain ⟨m, rendered⟩ := render_of_spoken spoken
  have bound : Statement.bind ⟨String.ofList cs, params⟩ d =
      Binding.outcome d (lexemes cs) params := by
    rw [Statement.bind_outcome, Statement.lexemes, String.toList_ofList]
  rw [CountCall.asked, rendered, ← bound]

theorem exists_asked (given : (c.spoken d).any (fun s =>
    (placeholders (lexemes s.1)).all s.2.contains) = true) : ∃ b, c.asked d = some b := by
  obtain ⟨⟨cs, params⟩, spoken, valued⟩ := (Option.any_eq_true _ _).mp given
  rw [asked_of_spoken spoken, Binding.outcome_of_contains d valued]
  exact ⟨_, rfl⟩

/-- The count of a statement is what the storage answers, as far as it does. -/
def CountOf (d : Dialect) (answer : Bound → Except String (List Row)) (x : Statement)
    (n : UInt64) :
    Prop :=
  ∀ b rows, x.bind d = .ok b → answer b = .ok rows → n = countOfRows rows

/-- Every count in a memo is that of a statement with its key. -/
structure Sound (d : Dialect) (answer : Bound → Except String (List Row))
    (digest : String → String) (memo : CountMemo) : Prop where
  hashes : memo.digest = digest
  entries : ∀ key n, memo.get? key = some n →
    ∃ x : Statement, x.Legible ∧ digest (identity x) = key ∧ CountOf d answer x n

/-- What a call that succeeds gives: the count under its key, and this is in the memo afterwards. -/
structure Gives (d : Dialect) (answer : Bound → Except String (List Row)) (c : CountCall)
    (memo : CountMemo) (n : UInt64) (memo' : CountMemo) (x : Statement) : Prop where
  rendered : ∃ m, c.derived.render d c.session.drawn = (.ok x, m)
  outcome : memo.get? (memo.key x) = some n ∧ memo' = memo ∨
    memo.get? (memo.key x) = none ∧ memo' = memo.insert (memo.key x) n ∧ CountOf d answer x n

theorem gives_of_run {n : UInt64} {memo' : CountMemo}
    (ran : (c.run (.fixed d answer) memo).1 = .ok (n, memo')) :
    ∃ x, Gives d answer c memo n memo' x := by
  obtain ⟨xs, asked, counting⟩ :=
    executeCount_counting (.fixed d answer) c.query c.unique memo c.session
  change Counting _ _ _ _ _ _ (c.run (.fixed d answer) memo).1 at counting
  rw [ran] at counting
  have replies := asked.answered
  cases counting with
  | remembered rendered known => exact ⟨_, ⟨_, rendered⟩, Or.inl ⟨known, rfl⟩⟩
  | counted rendered fresh =>
    refine ⟨_, ⟨_, rendered⟩, Or.inr ⟨fresh, rfl, fun b rows bound answered => ?_⟩⟩
    have own := (reply_fixed (n := c.session.served)).mpr ⟨b, bound, answered⟩
    rw [Except.ok.inj (replies.1.trans own)]
  | recounted rendered fresh plain =>
    refine ⟨_, ⟨_, rendered⟩, Or.inr ⟨fresh, rfl, fun b rows bound answered => ?_⟩⟩
    -- the fallback is asked only when the storage does not answer
    have own := (reply_fixed (n := c.session.served)).mpr ⟨b, bound, answered⟩
    cases replies.1.trans own

theorem next_of_run {n : UInt64} {memo' : CountMemo} {st : Storage}
    (ran : (c.run st memo).1 = .ok (n, memo')) : next st memo c = memo' := by
  rw [next, ran]

theorem next_cases (d : Dialect) (answer : Bound → Except String (List Row)) (c : CountCall)
    (memo : CountMemo) : next (.fixed d answer) memo c = memo ∨
      ∃ n x, Gives d answer c memo n (next (.fixed d answer) memo c) x := by
  rcases ran : (c.run (.fixed d answer) memo).1 with e | ⟨n, memo'⟩
  · exact Or.inl (by rw [next, ran])
  · rw [next_of_run ran]
    obtain ⟨x, gives⟩ := gives_of_run ran
    exact Or.inr ⟨n, x, gives⟩

namespace Gives

variable {n : UInt64} {memo' : CountMemo} (gives : Gives d answer c memo n memo' x)

include gives

theorem digest_eq : memo'.digest = memo.digest := by
  rcases gives.outcome with ⟨-, rfl⟩ | ⟨-, rfl, -⟩
  · rfl
  · rfl

theorem kept {key : String} {k : UInt64} (known : memo.get? key = some k) :
    memo'.get? key = some k := by
  rcases gives.outcome with ⟨-, rfl⟩ | ⟨fresh, rfl, -⟩
  · exact known
  · have other : memo.key x ≠ key := by
      rintro rfl
      rw [fresh] at known
      cases known
    rw [CountMemo.get?, CountMemo.insert, OrderedMap.get?_insert, if_neg other]
    exact known

theorem own : memo'.get? (memo.key x) = some n := by
  rcases gives.outcome with ⟨known, rfl⟩ | ⟨-, rfl, -⟩
  · exact known
  · rw [CountMemo.get?, CountMemo.insert, OrderedMap.get?_insert, if_pos rfl]

theorem sound (careful : c.Careful d) (sound : Sound d answer digest memo) :
    Sound d answer digest memo' := by
  refine ⟨gives.digest_eq.trans sound.hashes, fun key k known => ?_⟩
  rcases gives.outcome with ⟨-, rfl⟩ | ⟨-, rfl, count⟩
  · exact sound.entries key k known
  · rw [CountMemo.get?, CountMemo.insert, OrderedMap.get?_insert] at known
    split at known
    · next here =>
      cases known
      obtain ⟨m, rendered⟩ := gives.rendered
      refine ⟨x, careful.legible x m rendered, ?_, count⟩
      rw [← here, CountMemo.key, sound.hashes]
    · exact sound.entries key k known

end Gives

theorem sound_next (careful : c.Careful d) (sound : Sound d answer digest memo) :
    Sound d answer digest (next (.fixed d answer) memo c) := by
  rcases next_cases d answer c memo with same | ⟨n, x, gives⟩
  · exact same.symm ▸ sound
  · exact gives.sound careful sound

theorem kept_next {key : String} {k : UInt64} (known : memo.get? key = some k) :
    (next (.fixed d answer) memo c).get? key = some k := by
  rcases next_cases d answer c memo with same | ⟨n, x, gives⟩
  · exact same.symm ▸ known
  · exact gives.kept known

theorem sound_empty (d : Dialect) (answer : Bound → Except String (List Row))
    (digest : String → String) : Sound d answer digest ⟨digest, ∅⟩ :=
  ⟨rfl, fun _ _ known => nomatch known⟩

theorem sound_foldl {calls : List CountCall} (careful : ∀ c ∈ calls, c.Careful d)
    (sound : Sound d answer digest memo) :
    Sound d answer digest (calls.foldl (next (.fixed d answer)) memo) := by
  induction calls generalizing memo with
  | nil => exact sound
  | cons c rest ih =>
    obtain ⟨here, later⟩ := List.forall_mem_cons.mp careful
    exact ih later (sound_next here sound)

theorem sound_memoOf (answer : Bound → Except String (List Row)) (digest : String → String)
    {calls : List CountCall} (careful : ∀ c ∈ calls, c.Careful d) :
    Sound d answer digest (memoOf (.fixed d answer) digest calls) :=
  sound_foldl careful (sound_empty d answer digest)

theorem kept_foldl (calls : List CountCall) {key : String} {k : UInt64}
    (known : memo.get? key = some k) :
    (calls.foldl (next (.fixed d answer)) memo).get? key = some k := by
  induction calls generalizing memo with
  | nil => exact known
  | cons c rest ih => exact ih (kept_next known)

theorem asked_eq_some {b : Bound} (asked : c.asked d = some b) :
    ∃ x m, c.derived.render d c.session.drawn = (.ok x, m) ∧ x.bind d = .ok b := by
  rw [CountCall.asked] at asked
  rcases rendered : c.derived.render d c.session.drawn with ⟨e | x, m⟩
  · rw [rendered] at asked
    cases asked
  · rw [rendered] at asked
    rcases bound : x.bind d with e | b'
    · simp [bound, Except.toOption] at asked
    · simp only [bound, Except.toOption, Option.some.injEq] at asked
      exact ⟨x, m, rfl, asked ▸ bound⟩

theorem run_of_asked {b : Bound} {rows : List Row} (asks : c.asked d = some b)
    (answered : answer b = .ok rows)
    (known : ∀ x m n, c.derived.render d c.session.drawn = (.ok x, m) → x.bind d = .ok b →
      memo.get? (memo.key x) = some n → n = countOfRows rows) :
    (c.run (.fixed d answer) memo).1.map Prod.fst = .ok (countOfRows rows) := by
  obtain ⟨x, m, rendered, bound⟩ := asked_eq_some asks
  obtain ⟨xs, asked, counting⟩ :=
    executeCount_counting (.fixed d answer) c.query c.unique memo c.session
  change Counting _ _ _ _ _ _ (c.run (.fixed d answer) memo).1 at counting
  have replies := asked.answered
  have own := (reply_fixed (n := c.session.served)).mpr ⟨b, bound, answered⟩
  have here {y : Statement} {k : Nat}
      (again : c.derived.render d c.session.drawn = (.ok y, k)) : y = x := by
    rw [rendered] at again
    cases again
    rfl
  generalize (c.run (.fixed d answer) memo).1 = result at counting
  cases counting with
  | refused refused =>
    change c.derived.render d _ = _ at refused
    rw [rendered] at refused
    cases refused
  | remembered again found =>
    obtain rfl := here again
    exact congrArg Except.ok (known _ _ _ rendered bound found)
  | counted again fresh =>
    obtain rfl := here again
    cases replies.1.trans own
    rfl
  | unplain again fresh plain =>
    obtain rfl := here again
    cases replies.1.trans own
  | recounted again fresh plain =>
    obtain rfl := here again
    cases replies.1.trans own
  | uncounted again fresh plain =>
    obtain rfl := here again
    cases replies.1.trans own

theorem run_of_sound (injective : Function.Injective digest) (careful : c.Careful d)
    (sound : Sound d answer digest memo) {b : Bound} {rows : List Row} (asks : c.asked d = some b)
    (answered : answer b = .ok rows) :
    (c.run (.fixed d answer) memo).1.map Prod.fst = .ok (countOfRows rows) := by
  refine run_of_asked asks answered fun x m n rendered bound known => ?_
  obtain ⟨x₀, legible, keys, count⟩ := sound.entries _ _ known
  rw [CountMemo.key, sound.hashes] at keys
  have bound₀ := CountKey.bind_of_identity (careful.legible _ _ rendered) legible
    (injective keys).symm bound
  exact count b rows bound₀ answered

theorem exists_memo {n : UInt64} {st : Storage} (counts : (c.run st memo).1.map Prod.fst = .ok n) :
    ∃ memo', (c.run st memo).1 = .ok (n, memo') := by
  rcases ran : (c.run st memo).1 with e | ⟨k, memo'⟩
  · rw [ran] at counts
    cases counts
  · rw [ran] at counts
    obtain rfl : k = n := Except.ok.inj counts
    exact ⟨memo', rfl⟩

theorem render_again (careful : c.Careful d) (careful' : c'.Careful d) (query : c.query = c'.query)
    (unique : c.unique = c'.unique) (rendered : c.derived.render d c.session.drawn = (.ok x, m)) :
    ∃ x' m', c'.derived.render d c'.session.drawn = (.ok x', m') ∧
    identity x' = identity x := by
  have derived : c.derived = c'.derived := by
    rw [CountCall.derived, query, unique, CountCall.derived]
  obtain ⟨o, h, outlined⟩ := exists_outline rendered
  have outlined' : c'.derived.outline d = .ok (o, h) := derived ▸ outlined
  have clear := Query.clear_counted careful.passed outlined
  have clear' := Query.clear_counted careful'.passed outlined'
  have filled := Query.render_ok outlined fun a ha => clear a (Outline.mem_names.mpr (Or.inl ha))
  have filled' := Query.render_ok outlined' fun a ha => clear' a (Outline.mem_names.mpr (Or.inl ha))
  rw [rendered] at filled
  cases filled
  exact ⟨_, _, filled', Outline.identity_parted (careful.parted o h outlined)
    (Query.bound_outline outlined) (Query.counted_injective _) (Query.counted_injective _)
    clear' clear⟩

theorem run_of_known {n : UInt64} (rendered : c.derived.render d c.session.drawn = (.ok x, m))
    (known : memo.get? (memo.key x) = some n) :
    (c.run (.fixed d answer) memo).1 = .ok (n, memo) ∧
      c.session.Silent (c.run (.fixed d answer) memo).2 := by
  let later : Session := { c.session with drawn := m }
  have drawn : Session.draw
    ((Count.derive c.query c.unique).render (Storage.fixed d answer).dialect)
      c.session = (.ok x, later) := draw_eq rendered
  have ran : c.run (.fixed d answer) memo =
      (.ok (n, memo), { later with events := later.events ++ [.countServed n] }) := by
    rw [run, executeCount, Effect.bind_ok _ drawn, known]
    rfl
  rw [ran]
  exact ⟨rfl, rfl, rfl⟩

/-- The memo changes no count that the storage would give, and what was counted once is served from
then on without a question. -/
theorem executeCount_memoized (answer : Bound → Except String (List Row))
    (injective : Function.Injective digest) {calls : List CountCall}
    (careful : ∀ c ∈ calls, c.Careful d) (careful' : c.Careful d) :
    let st := Storage.fixed d answer
    let memo := memoOf st digest calls
    (∀ b rows, c.asked d = some b → answer b = .ok rows →
      (c.run st memo).1.map Prod.fst = .ok (countOfRows rows) ∧
      (c.run st (memoOf st digest [])).1.map Prod.fst = .ok (countOfRows rows)) ∧
    ∀ before earlier after n memo', calls = before ++ earlier :: after →
      earlier.query = c.query → earlier.unique = c.unique →
      (earlier.run st (memoOf st digest before)).1 = .ok (n, memo') →
        (c.run st memo).1 = .ok (n, memo) ∧ c.session.Silent (c.run st memo).2 := by
  intro st memo
  refine ⟨fun b rows asks answered => ⟨?_, ?_⟩, ?_⟩
  · exact run_of_sound injective careful' (sound_memoOf answer digest careful) asks answered
  · exact run_of_sound injective careful' (sound_empty d answer digest) asks answered
  · rintro before earlier after n memo' rfl query unique ran
    obtain ⟨x, gives⟩ := gives_of_run ran
    obtain ⟨m, rendered⟩ := gives.rendered
    obtain ⟨x', m', rendered', same⟩ := render_again
      (careful earlier (List.mem_append_right _ List.mem_cons_self)) careful' query unique rendered
    have first := sound_memoOf answer digest fun c mem => careful c (List.mem_append_left _ mem)
    have hashes : memo.digest = (memoOf st digest before).digest :=
      (sound_memoOf answer digest careful).hashes.trans first.hashes.symm
    have later : memo = after.foldl (next st) memo' := by
      rw [← next_of_run ran]
      exact List.foldl_append
    have known : memo.get? ((memoOf st digest before).key x) = some n :=
      later ▸ kept_foldl after gives.own
    refine run_of_known rendered' ?_
    rw [CountMemo.key, hashes, same]
    exact known

end

def itemsBefore : CountCall := ⟨Query.itemsOfCategory, true, { drawn := 2 }⟩

def itemsOrdered : CountCall := ⟨Query.itemsOfCategory.order "t.id" .asc, false, { drawn := 5 }⟩

def itemsAfter : CountCall := ⟨Query.itemsOfCategory, true, { drawn := 9 }⟩

def seven (_ : Bound) : Except String (List Row) := .ok [.ofList [("total", .ofInt 7)]]

theorem executeCount_memoized_items :
    let st := Storage.fixed .sqlite seven
    let memo := memoOf st id [itemsBefore, itemsOrdered]
    ((itemsAfter.run st memo).1.map Prod.fst = .ok 7 ∧
      (itemsAfter.run st (memoOf st id [])).1.map Prod.fst = .ok 7) ∧
    (itemsAfter.run st memo).1 = .ok (7, memo) ∧
      itemsAfter.session.Silent (itemsAfter.run st memo).2 := by
  intro st memo
  have careful : ∀ c ∈ [itemsBefore, itemsOrdered], c.Careful .sqlite := by
    refine List.forall_mem_cons.mpr ⟨?_, List.forall_mem_cons.mpr ⟨?_, by simp⟩⟩
    · decide +kernel
    · decide +kernel
  have careful' : itemsAfter.Careful .sqlite := by decide +kernel
  have memoized := executeCount_memoized seven Function.injective_id careful careful'
  obtain ⟨b, asks⟩ : ∃ b, itemsAfter.asked .sqlite = some b :=
    exists_asked (by decide +kernel)
  obtain ⟨b', asks'⟩ : ∃ b, itemsBefore.asked .sqlite = some b :=
    exists_asked (by decide +kernel)
  obtain ⟨memo', first⟩ : ∃ memo', (itemsBefore.run st (memoOf st id [])).1 =
      .ok (7, memo') := by
    have count : (itemsBefore.run st (memoOf st id [])).1.map Prod.fst =
        .ok (countOfRows [.ofList [("total", .ofInt 7)]]) :=
      run_of_asked asks' rfl fun x m n _ _ known => nomatch known
    exact exists_memo count
  exact ⟨memoized.1 b _ asks rfl, memoized.2 [] itemsBefore
    [itemsOrdered] 7 memo' rfl rfl rfl first⟩

/-- After the first call the memo serves for the second one another count than the storage gives. -/
structure Mistaken (answer : Bound → Except String (List Row)) (first second : CountCall)
    (own served : UInt64) : Prop where
  answered : ((second.asked .sqlite).bind fun b => (answer b).toOption.map countOfRows) = some own
  alone : (second.run (.fixed .sqlite answer) (memoOf (.fixed .sqlite answer) id [])).1.map
    Prod.fst = .ok own
  after : (second.run (.fixed .sqlite answer) (memoOf (.fixed .sqlite answer) id [first])).1.map
    Prod.fst = .ok served
  other : own ≠ served

def tally (c : Char) (b : Bound) : Except String (List Row) :=
  .ok [.ofList [("total", .ofInt (b.sql.toList.count c))]]

/-- Every text written by hand is legible by itself. -/
def Written (q : Query) : Prop :=
  q.Worded (fun a => Legible .plain (a.fill id)) (fun s => Legible .plain s.toList) .sqlite

/-- The quote in the name is not doubled, so the placeholder that is drawn stands in quotes. -/
def namedWithQuote : Query :=
  (((Query.withPrefix "").readFrom "t" "t").join "u" "u" "u.name = 'O'Brien'" .inner).filterBy
    (Predicate.new "t.id" [.ofInt 5] .equal)

def identifiedBy (expr : String) : Query :=
  (((Query.withPrefix "").select expr uniqueId).readFrom "t" "t").whereRaw
    ⟨"t.id = :qp1", .ofList [("qp1", .ofInt 5)]⟩

def named (name : String) : Query :=
  ((Query.withPrefix "").readFrom "t" "t").whereRaw ⟨"t.name = '" ++ name ++ "'", ∅⟩

theorem written_namedWithQuote : Written namedWithQuote := by
  refine ⟨⟨by decide +kernel, fun e he => (nomatch he), ?_, fun e he => (nomatch he), ?_,
    fun e he => (nomatch he), fun e he => (nomatch he)⟩, fun o ho => (nomatch ho),
    fun o ho => (nomatch ho), by decide +kernel, by decide +kernel⟩
  · decide +kernel
  · intro p hp
    obtain rfl := List.mem_singleton.mp hp
    exact ⟨by decide +kernel, fun r hr => (nomatch hr), fun t ht => (nomatch ht),
      fun r t hr => (nomatch hr)⟩

theorem written_identifiedBy {expr : String}
    (legible : Legible .plain ((Marked.ofText expr).fill id)) : Written (identifiedBy expr) := by
  have texts : ∀ t ∈ ["", "" ++ "t", "t", uniqueId, "t.id = :qp1"],
      Legible .plain ((Marked.ofText t).fill id) := by
    decide +kernel
  refine ⟨⟨trivial, ?_, fun e he => (nomatch he), fun e he => (nomatch he),
    fun p hp => (nomatch hp), fun e he => (nomatch he), fun e he => (nomatch he)⟩, ?_,
    fun o ho => (nomatch ho), texts ("" ++ "t") (by simp), texts "t" (by simp)⟩
  · intro e he
    obtain rfl : e = (uniqueId, expr) := List.mem_singleton.mp he
    exact ⟨texts _ (by simp), legible⟩
  · intro o ho
    obtain rfl := List.mem_singleton.mp ho
    exact texts "t.id = :qp1" (by simp)

/-- What stands in a key behind the colon of a drawn name. -/
def rankText : Name → String
  | .drawn i => "_" ++ Text.decimal i
  | .written s => s

theorem toList_numbered (a : Marked) : (CountKey.numbered a).toList = a.spell rankText := by
  induction a with
  | nil => rfl
  | cons t rest ih =>
    cases t with
    | char c => rw [CountKey.numbered_char, ih, Marked.spell]
    | hole i =>
      rw [CountKey.numbered_hole, ih, Marked.spell, rankText]
      simp [Text.decimal]

/-- What a statement is keyed by: its text with drawn names by rank, and what stands behind it. -/
def keyed (s : List Char × Params) : List Char × List String :=
  let read := CountKey.ranked [] (CountKey.scanner.run .plain s.1)
  (read.1.spell rankText, (read.2.map s.2.get?).map CountKey.valuePart ++
    (CountKey.others ⟨.ofList s.1, s.2⟩ read.2).map CountKey.namedPart)

theorem toList_identity (s : List Char × Params) :
    (identity ⟨.ofList s.1, s.2⟩).toList = (keyed s).1 ++
    (CountKey.joined (keyed s).2).toList := by
  have read : CountKey.ranked [] (CountKey.tokens (String.ofList s.1)) =
      CountKey.ranked [] (CountKey.scanner.run .plain s.1) := by
    rw [CountKey.tokens, String.toList_ofList]
  rw [CountKey.identity_eq ⟨.ofList s.1, s.2⟩ read, String.toList_append,
    toList_numbered, keyed]

def total (n : Nat) : List Row := [.ofList [("total", .ofInt n)]]

/-- How often a character stands in what is asked for a statement, if that can be asked. -/
def tallied (c : Char) (s : List Char × Params) : Option Nat :=
  let names := placeholders (lexemes s.1)
  if names.all s.2.contains then
    some (((lexemes s.1).flatMap (Lexeme.bound .sqlite names.eraseDups)).count c)
  else none

theorem asked_of_tallied {c : Char} {call : CountCall} {n : Nat}
    (counts : (call.spoken .sqlite).bind (tallied c) = some n) :
    ∃ b, call.asked .sqlite = some b ∧ tally c b = .ok (total n) := by
  obtain ⟨⟨cs, params⟩, spoken, counts⟩ := Option.bind_eq_some_iff.mp counts
  obtain ⟨valued, count⟩ := Option.ite_none_right_eq_some.mp counts
  rw [asked_of_spoken spoken, Binding.outcome_of_contains .sqlite valued]
  exact ⟨_, rfl, by rw [tally, String.toList_ofList, Option.some.inj count, total]⟩

theorem run_of_tallied {c : Char} {call : CountCall} (n : Nat)
    (counts : (call.spoken .sqlite).bind (tallied c) = some n) :
    (call.run (.fixed .sqlite (tally c)) (memoOf (.fixed .sqlite (tally c)) id [])).1.map Prod.fst =
      .ok (countOfRows (total n)) := by
  obtain ⟨b, asks, answered⟩ := asked_of_tallied counts
  exact run_of_asked asks answered fun x m n _ _ known => nomatch known

/-- A memo errs when it is asked twice under one key and the storage gives two counts. -/
theorem mistaken_of_keyed {c : Char} {first second : CountCall} {served : UInt64} (own : Nat)
    (other : countOfRows (total own) ≠ served)
    (before : (first.run (.fixed .sqlite (tally c)) (memoOf (.fixed .sqlite (tally c)) id [])).1.map
      Prod.fst = .ok served)
    (facts : (second.spoken .sqlite).bind (tallied c) = some own ∧
      (first.spoken .sqlite).map keyed = (second.spoken .sqlite).map keyed) :
    Mistaken (tally c) first second (countOfRows (total own)) served := by
  obtain ⟨counts, same⟩ := facts
  obtain ⟨b, asks, answered⟩ := asked_of_tallied counts
  obtain ⟨s', spoken', -⟩ := Option.bind_eq_some_iff.mp counts
  rw [spoken', Option.map_some] at same
  obtain ⟨s, spoken, same⟩ := Option.map_eq_some_iff.mp same
  refine ⟨by rw [asks, Option.bind_some, answered]; rfl, run_of_tallied own counts, ?_, other⟩
  obtain ⟨memo', ran⟩ := exists_memo before
  obtain ⟨x, gives⟩ := gives_of_run ran
  obtain ⟨m, rendered⟩ := gives.rendered
  obtain ⟨k, written⟩ := render_of_spoken spoken
  obtain ⟨k', written'⟩ := render_of_spoken spoken'
  rw [written] at rendered
  cases rendered
  have identities : identity ⟨.ofList s.1, s.2⟩ = identity ⟨.ofList s'.1, s'.2⟩ := by
    rw [← String.toList_inj, toList_identity, toList_identity, same]
  have key : memo'.key ⟨.ofList s'.1, s'.2⟩ =
      (memoOf (.fixed .sqlite (tally c)) id []).key ⟨.ofList s.1, s.2⟩ := by
    rw [CountMemo.key, CountMemo.key, gives.digest_eq, identities]
  have after : memoOf (.fixed .sqlite (tally c)) id [first] = memo' := next_of_run ran
  rw [after, (run_of_known written' (key ▸ gives.own)).1]
  rfl

theorem mistaken_namedWithQuote :
    Mistaken (tally '2') ⟨namedWithQuote, false, {}⟩
      ⟨namedWithQuote, false, { drawn := 1 }⟩ 1 0 :=
  mistaken_of_keyed 1 (by decide) (run_of_tallied 0 (by decide +kernel)) (by decide +kernel)

theorem mistaken_identifiedBy :
    Mistaken (tally '?') ⟨identifiedBy ":\x7b_0\x7d", true, { drawn := 1 }⟩
      ⟨identifiedBy ":qp1", true, { drawn := 1 }⟩ 2 1 := by
  refine mistaken_of_keyed 2 (by decide) ?_ (by decide +kernel)
  -- `:_0` has no value, so the plain count is served
  have counts : ((run (.fixed .sqlite (tally '?'))
    ⟨identifiedBy ":\x7b_0\x7d", true, { drawn := 1 }⟩
      (memoOf (.fixed .sqlite (tally '?')) id [])).1.toOption.map Prod.fst) = some 1 := by
    decide +kernel
  generalize run _ _ _ = result at counts ⊢
  obtain ⟨e | r, s⟩ := result
  · cases counts
  · exact congrArg Except.ok (Option.some.inj counts)

theorem mistaken_named :
    Mistaken (tally '٤') ⟨named ":qp٣", false, {}⟩ ⟨named ":qp٤", false, {}⟩ 1 0 :=
  mistaken_of_keyed 1 (by decide) (run_of_tallied 0 (by decide +kernel)) (by decide +kernel)

/-- It is not enough that texts written by hand are legible by themselves: a drawn placeholder comes
to stand in quotes, or a reference puts a number behind a colon. And digits of other scripts are
taken for the number of a placeholder, though none that is drawn has them. -/
theorem memo_mistakes :
    (Written namedWithQuote ∧
      Mistaken (tally '2') ⟨namedWithQuote, false, {}⟩
        ⟨namedWithQuote, false, { drawn := 1 }⟩ 1 0) ∧
    (Written (identifiedBy ":\x7b_0\x7d") ∧ Written (identifiedBy ":qp1") ∧
      Mistaken (tally '?') ⟨identifiedBy ":\x7b_0\x7d", true, { drawn := 1 }⟩
        ⟨identifiedBy ":qp1", true, { drawn := 1 }⟩ 2 1) ∧
    Mistaken (tally '٤') ⟨named ":qp٣", false, {}⟩ ⟨named ":qp٤", false, {}⟩ 1 0 :=
  ⟨⟨written_namedWithQuote, mistaken_namedWithQuote⟩,
    ⟨written_identifiedBy (by decide +kernel), written_identifiedBy (by decide +kernel),
      mistaken_identifiedBy⟩, mistaken_named⟩

end CountCall

end Sql

end Reports
