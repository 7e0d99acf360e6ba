import Mathlib.Logic.Function.Basic
import Reports.Filter.Collection
import Reports.Proofs.OrderedMap
import Reports.Proofs.Ascending
import Reports.Proofs.Json.ReadBack

/-! Choices of many users in one store. Collections save, load and forget in any order, and each
gets back what was last saved for its user and its identifier: no two of these have the same key. -/
namespace Reports

namespace UserStore

theorem get?_set (s : UserStore) (k j v : String) :
    (s.set k v).get? j = if k = j then some v else s.get? j := s.entries.get?_insert k j v

theorem get?_delete (s : UserStore) (k j : String) :
    (s.delete k).get? j = if k = j then none else s.get? j := by
  by_cases same : k = j
  · subst same
    have gone : k ∉ (s.entries.erase k).keys := by simp [OrderedMap.erase, OrderedMap.keys]
    rw [if_pos rfl]
    exact ((s.entries.erase k).get?_eq_none_iff k).mpr gone
  · rw [if_neg same]
    exact OrderedMap.lookup_filter (fun i => decide (i ≠ k)) (decide_eq_true (Ne.symm same))
      s.entries.entries

end UserStore

namespace Filter.State

def nesting (s : State) : Nat := Json.membersNesting s.values

/-- Every value is told exactly by its text. -/
def Faithful (s : State) : Prop := ∀ e ∈ s.values, e.2.Faithful

theorem sorted_ofList (entries : List (String × Json)) :
    Ascending.Sorted (ofList entries).values :=
  Ascending.sorted_ofList entries

theorem read?_text_eq (s : State) : read? s.text =
    ((Json.object s.values).tree.asMap (Json.Tree.toJson Json.read 126)).map fun m =>
      ofList m.entries := by
  have fields : (Json.object [("values", .object s.values)]).tree.fields ["values"] =
      some ⟨[("values", (Json.object s.values).tree)]⟩ := rfl
  have found : (⟨[("values", (Json.object s.values).tree)]⟩ : OrderedMap String Json.Tree).get?
      "values" = some (Json.object s.values).tree := rfl
  have limit : Json.depthLimit - 2 = 126 := rfl
  simp only [read?, text, Json.read_tree, Option.bind_eq_bind, Option.bind_some,
    fields, found, limit]
  cases (Json.object s.values).tree.asMap (Json.Tree.toJson Json.read 126) <;> rfl

/-- A state that its text tells exactly is read as itself, unless it nests too deep. -/
theorem read?_text {s : State} (sorted : Ascending.Sorted s.values) (faithful : s.Faithful) :
    read? s.text = if s.nesting < 126 then some s else none := by
  have fresh : ((OrderedMap.empty : OrderedMap String Json).keys ++ s.values.map Prod.fst).Nodup :=
    sorted.nodup
  have entries : (Json.object s.values).tree.asMap (Json.Tree.toJson Json.read 126) =
      if s.nesting < 126 then some ⟨s.values⟩ else none :=
    Json.asMap_go_memberTrees (by decide)
      (fun m mem => (faithful m mem).toJson_tree Json.read (by decide))
      fresh
  have again : ofList s.values = s := congrArg State.mk (Ascending.ofList_of_sorted sorted)
  rw [read?_text_eq, entries]
  split
  · rw [Option.map_some, again]
  · rfl

end Filter.State

namespace Filter

/-- Whose choices a collection keeps: those of a user, under the identifier of the collection. -/
structure Owner where
  userId : Int
  identifier : String
  deriving DecidableEq

namespace Owner

def key (o : Owner) : String := storeKey o.userId o.identifier

theorem key_toList (o : Owner) : o.key.toList =
    "quarry:filters:".toList ++
    ((Text.signedDecimal o.userId).toList ++ ':' :: o.identifier.toList) := by
  change ("quarry:filters:" ++ Text.signedDecimal o.userId ++ ":" ++ o.identifier).toList = _
  rw [String.toList_append, String.toList_append, String.toList_append, List.append_assoc,
    List.append_assoc]
  rfl

/-- The digits of the user end at the first colon behind them, whatever the identifier holds. -/
theorem key_injective {o p : Owner} (same : o.key = p.key) : o = p := by
  obtain ⟨u, i⟩ := o
  obtain ⟨v, j⟩ := p
  have chars := congrArg String.toList same
  rw [key_toList, key_toList] at chars
  have colon (rest : List Char) : Text.Ends Number.isNumberChar (':' :: rest) :=
    Text.ends_cons (by decide)
  obtain ⟨users, tails⟩ := Text.run_unique (Number.signedDecimal_chars u).1
    (Number.signedDecimal_chars v).1 (colon _) (colon _) (List.append_cancel_left chars)
  obtain rfl := Number.signedDecimal_injective (String.toList_inj.mp users)
  obtain rfl := String.toList_inj.mp (List.cons.inj tails).2
  rfl

end Owner

def Collection.owner (c : Collection) : Owner := ⟨c.context.userId, c.identifier⟩

theorem Collection.storeKey_eq (c : Collection) : c.storeKey = c.owner.key := rfl

/-- What one of several collections does. Between the calls that use the store it may change in any
way, its user and its identifier included. -/
inductive Operation (ι : Type)
  | save (i : ι)
  | load (i : ι)
  | forget (i : ι)
  | change (i : ι) (f : Collection → Collection)

def Operation.actor {ι : Type} : Operation ι → ι
  | save i | load i | forget i | change i _ => i

/-- Collections that share a store. Beside them stand the writes so far, the latest first: for each
its owner, and the state that was saved or nothing when it was forgotten. -/
structure World (ι : Type) where
  collections : ι → Collection
  store : UserStore := .empty
  writes : List (Owner × Option State) := []

namespace World

variable {ι : Type}

/-- What the last write of an owner left. -/
def kept (w : World ι) (o : Owner) : Option State :=
  (w.writes.find? fun e => e.1 = o).bind Prod.snd

theorem kept_of_writes {w w' : World ι} {p : Owner} {r : Option State}
    (wrote : w'.writes = (p, r) :: w.writes) (o : Owner) :
    w'.kept o = if p = o then r else w.kept o := by
  by_cases here : p = o <;> simp [kept, wrote, here]

theorem mem_writes_of_kept {w : World ι} {o : Owner} {s : State} (kept : w.kept o = some s) :
    (o, some s) ∈ w.writes := by
  obtain ⟨⟨p, r⟩, found, rfl⟩ := Option.bind_eq_some_iff.mp kept
  obtain rfl : p = o := by simpa using List.find?_some found
  exact List.mem_of_find?_eq_some found

variable [DecidableEq ι]

def step (w : World ι) : Operation ι → World ι
  | .save i =>
    let c := w.collections i
    { w with store := c.save w.store, writes := (c.owner, some c.state) :: w.writes }
  | .forget i =>
    let c := w.collections i
    { w with store := c.forget w.store, writes := (c.owner, none) :: w.writes }
  | .load i =>
    match (w.collections i).load w.store with
    | .ok (_, c, _) => { w with collections := Function.update w.collections i c }
    | .error _ => w
  | .change i f => { w with collections := Function.update w.collections i (f (w.collections i)) }

def run (w : World ι) (ops : List (Operation ι)) : World ι := ops.foldl step w

/-- The store has, for each owner, what the last write left, and every saved state is in order. -/
structure Consistent (w : World ι) : Prop where
  stored : ∀ o : Owner, w.store.get? o.key = (w.kept o).map State.text
  sorted : ∀ o s, (o, some s) ∈ w.writes → Ascending.Sorted s.values

omit [DecidableEq ι] in
theorem consistent_start (collections : ι → Collection) : Consistent { collections } where
  stored := fun _ => rfl
  sorted := fun _ _ mem => nomatch mem

/-- An operation writes for the owner of its collection or not at all. -/
theorem step_cases (w : World ι) (op : Operation ι) :
    ((w.step op).store = w.store ∧ (w.step op).writes = w.writes) ∨
      ∃ r, (w.step op).writes = ((w.collections op.actor).owner, r) :: w.writes ∧
        (∀ s, r = some s → s = (w.collections op.actor).state) ∧
        ∀ o : Owner, (w.step op).store.get? o.key =
          if (w.collections op.actor).owner = o then r.map State.text else w.store.get? o.key := by
  have keys (c : Collection) (o : Owner) : c.storeKey = o.key ↔ c.owner = o := by
    rw [Collection.storeKey_eq]
    exact ⟨Owner.key_injective, congrArg Owner.key⟩
  cases op with
  | save i =>
    refine Or.inr ⟨some (w.collections i).state, rfl, fun s saved => (Option.some.inj saved).symm,
      fun o => ?_⟩
    exact (UserStore.get?_set _ _ _ _).trans (if_congr (keys _ o) rfl rfl)
  | forget i =>
    refine Or.inr ⟨none, rfl, nofun, fun o => ?_⟩
    exact (UserStore.get?_delete _ _ _).trans (if_congr (keys _ o) rfl rfl)
  | load i =>
    simp only [step]
    split <;> exact Or.inl ⟨rfl, rfl⟩
  | change i f => exact Or.inl ⟨rfl, rfl⟩

theorem Consistent.step {w : World ι} (consistent : w.Consistent) (op : Operation ι) :
    (w.step op).Consistent := by
  obtain ⟨stored, sorted⟩ := consistent
  rcases step_cases w op with ⟨store, writes⟩ | ⟨r, writes, saved, got⟩
  · have kept (o : Owner) : (w.step op).kept o = w.kept o := by rw [World.kept, World.kept, writes]
    exact ⟨fun o => by rw [store, kept, stored], fun o s mem => sorted o s (writes ▸ mem)⟩
  · refine ⟨fun o => ?_, fun o s mem => ?_⟩
    · rw [got, kept_of_writes writes, stored]
      split <;> rfl
    · rw [writes] at mem
      rcases List.mem_cons.mp mem with here | before
      · obtain rfl := saved s (Prod.mk.inj here).2.symm
        exact State.sorted_ofList _
      · exact sorted o s before

theorem Consistent.run {w : World ι} (consistent : w.Consistent) (ops : List (Operation ι)) :
    (w.run ops).Consistent := by
  induction ops generalizing w with
  | nil => exact consistent
  | cons op rest ih => exact ih (consistent.step op)

theorem get?_step_of_ne (w : World ι) (op : Operation ι) {o : Owner}
    (other : (w.collections op.actor).owner ≠ o) :
    (w.step op).store.get? o.key = w.store.get? o.key := by
  rcases step_cases w op with ⟨store, -⟩ | ⟨r, -, -, got⟩
  · rw [store]
  · rw [got, if_neg other]

end World

namespace Collection

/-- Choices are kept apart for each user and identifier. After any operations of any collections on
one store, a collection that loads is as it was when the last write for its user and identifier was
forgetting or there was none. When it was saving, what the text of the saved state reads as is
applied, or the load fails when that cannot be read; a state that its text tells exactly is read as
itself unless a value of it nests 126 levels or more. No operation for another user or identifier
changes what is loaded. -/
theorem load_kept {ι : Type} [DecidableEq ι] (collections : ι → Collection)
    (ops : List (Operation ι)) (c : Collection) :
    let w := World.run { collections } ops
    (w.kept c.owner = none → c.load w.store = .ok (false, c, [])) ∧
      (∀ s, w.kept c.owner = some s →
        (∀ t, State.read? s.text = some t → c.load w.store = .ok (true, c.restore t)) ∧
          (State.read? s.text = none →
            c.load w.store = .error (.cache "malformed filter state")) ∧
          (s.Faithful → State.read? s.text = if s.nesting < 126 then some s else none)) ∧
      ∀ op, (w.collections op.actor).owner ≠ c.owner →
        c.load (w.step op).store = c.load w.store := by
  intro w
  obtain ⟨stored, sorted⟩ := (World.consistent_start collections).run ops
  have text : w.store.get? c.storeKey = (w.kept c.owner).map State.text := stored c.owner
  refine ⟨fun none => ?_, fun s some =>
    ⟨fun t read => ?_, fun unread => ?_, fun faithful => ?_⟩, fun op other => ?_⟩
  · rw [load, text, none]
    rfl
  · rw [load, text, some]
    simp only [Option.map_some, read]
  · rw [load, text, some]
    simp only [Option.map_some, unread]
  · exact State.read?_text (sorted c.owner s (World.mem_writes_of_kept some)) faithful
  · rw [load, load, storeKey_eq, World.get?_step_of_ne w op other]

def choosing (userId : Int) (identifier : String) (raw : Option Json) : Collection :=
  { identifier, context := { userId }, filters := [{ Filter.new "level" "c.level" with raw }] }

/-- Two users and identifiers whose keys differ in one colon only: the state of the first comes
back, that of the second was forgotten. -/
theorem load_kept_neighbours :
    let half : Binary64 := ⟨false, Nat.pow 2 1073, by decide +kernel⟩
    let first := choosing 1 "2:courses"
    let second := choosing 12 "courses"
    let saved := first (some (.array [.ofInt 3, .number (.float half)]))
    let w := World.run { collections := fun b => if b then saved else second (some (.ofInt 1)) }
      [.save true, .save false, .forget false]
    saved.state.Faithful ∧ saved.state.nesting < 126 ∧
      (first none).load w.store = .ok (true, saved, []) ∧
      (second none).load w.store = .ok (false, second none, []) := by
  intro half first second saved w
  have exact : (Number.float half).Exact :=
    Number.exact_float ⟨by decide +kernel, by decide +kernel⟩
  have value : (Json.array [.ofInt 3, .number (.float half)]).Faithful := by
    refine .array
      (List.forall_mem_cons.mpr ⟨.number (Number.exact_int (by decide) (by decide)), ?_⟩)
    exact List.forall_mem_singleton.mpr (.number exact)
  have faithful : saved.state.Faithful := List.forall_mem_singleton.mpr value
  have shallow : saved.state.nesting < 126 := by decide
  have kept : w.kept (first none).owner = some saved.state := rfl
  have gone : w.kept (second none).owner = none := rfl
  obtain ⟨-, came, -⟩ := load_kept (fun b => if b then saved else second (some (.ofInt 1)))
    [.save true, .save false, .forget false] (first none)
  obtain ⟨restored, -, read⟩ := came saved.state kept
  obtain ⟨nothing, -⟩ := load_kept (fun b => if b then saved else second (some (.ofInt 1)))
    [.save true, .save false, .forget false] (second none)
  exact ⟨faithful, shallow, restored saved.state ((read faithful).trans (if_pos shallow)),
    nothing gone⟩

def nested : Nat → Json
  | 0 => .null
  | n + 1 => .array [nested n]

theorem nesting_nested (n : Nat) : (nested n).nesting = n := by
  induction n with
  | zero => rfl
  | succ n ih => simp [nested, Json.nesting, Json.itemsNesting, ih]

theorem faithful_nested (n : Nat) : (nested n).Faithful := by
  induction n with
  | zero => exact .null
  | succ n ih => exact .array (List.forall_mem_singleton.mpr ih)

theorem load_save {c saved : Collection} (same : c.owner = saved.owner) (store : UserStore) :
    c.load (saved.save store) =
      match State.read? saved.state.text with
      | none => .error (.cache "malformed filter state")
      | some s => .ok (true, c.restore s) := by
  have kept : (saved.save store).get? c.storeKey = some saved.state.text := by
    rw [save, UserStore.get?_set, storeKey_eq, storeKey_eq, same, if_pos rfl]
  cases read : State.read? saved.state.text with
  | none => simp only [load, kept, read]
  | some s => simp only [load, kept, read]

theorem load_save_choosing (v : Json) (raw : Option Json) (store : UserStore) :
    (choosing 7 "courses" raw).load ((choosing 7 "courses" (some v)).save store) =
      match v.tree.toJson Json.read 126 with
      | none => .error (.cache "malformed filter state")
      | some w => .ok (true, (choosing 7 "courses" raw).restore ⟨[("level", w)]⟩) := by
  have saved : (choosing 7 "courses" (some v)).state = ⟨[("level", v)]⟩ := rfl
  have tree : (Json.object [("level", v)]).tree.asMap (Json.Tree.toJson Json.read 126) =
      (v.tree.toJson Json.read 126).map fun w => ⟨[("level", w)]⟩ := by
    change Json.Tree.asMap.go _ [(some "level", v.tree)] OrderedMap.empty = _
    rw [Json.Tree.asMap.go]
    cases v.tree.toJson Json.read 126 <;> rfl
  have same : (choosing 7 "courses" raw).owner = (choosing 7 "courses" (some v)).owner := rfl
  rw [load_save same, saved, State.read?_text_eq, tree]
  cases v.tree.toJson Json.read 126 <;> rfl

/-- Not every state that is saved comes back: too many levels cannot be read, a small number may
change in its last digit, and an object with a certain key gives way to what its text says. -/
theorem load_refused :
    let c := choosing 7 "courses" none
    let tiny : Binary64 := ⟨false, 10 ^ 16, by decide +kernel⟩
    let tinier : Binary64 := ⟨false, 10 ^ 16 - 2, by decide +kernel⟩
    let marked : Json := .object [(Json.embeddedKey, .string "1")]
    (∃ saved, c.apply "level" (nested 126) = .ok (true, saved) ∧
        c.load (saved.save .empty) = .error (.cache "malformed filter state")) ∧
      (∃ saved, c.apply "level" (.number (.float tiny)) = .ok (true, saved) ∧
        c.load (saved.save .empty) =
          .ok (true, choosing 7 "courses" (some (.number (.float tinier))), [])) ∧
      ∃ saved, c.apply "level" marked = .ok (true, saved) ∧
        c.load (saved.save .empty) = .ok (true, choosing 7 "courses" (some (.ofInt 1)), []) := by
  intro c tiny tinier marked
  have applied (v : Json) (some : isEmptyInput v = false) :
      c.apply "level" v = .ok (true, choosing 7 "courses" (.some v)) := by
    rw [apply, some, if_neg Bool.false_ne_true]
    rfl
  have deep : (nested 126).tree.toJson Json.read 126 = none := by
    rw [(faithful_nested 126).toJson_tree Json.read (by decide), Json.within, nesting_nested,
      if_neg (Nat.lt_irrefl 126)]
  have rounded : Number.ofLiteral (Number.float tiny).literal = some (.float tinier) := by
    decide +kernel
  have changed : (Json.number (.float tiny)).tree.toJson Json.read 126 =
      some (.number (.float tinier)) :=
    congrArg (Option.map Json.number) rounded
  have one : (Json.ofInt 1).Faithful := .number (Number.exact_int (by decide) (by decide))
  have given : marked.tree.toJson Json.read 126 = some (.ofInt 1) := by
    change Json.read (Json.ofInt 1).text = _
    exact one.read_text
  refine ⟨⟨_, applied _ rfl, ?_⟩, ⟨_, applied _ rfl, ?_⟩, ⟨_, applied _ rfl, ?_⟩⟩
  · rw [load_save_choosing, deep]
  · rw [load_save_choosing, changed]
    rfl
  · rw [load_save_choosing, given]
    rfl

end Collection

end Filter

end Reports
