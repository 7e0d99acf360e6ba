import Reports.Proofs.Effect
import Reports.Proofs.OrderedMap
import Reports.Sql.Rendering

/-! What can be read of a statement without its values: its text and the names of its parameters.
Fragments of one shape make statements of one shape. -/
namespace Reports.Sql

def Statement.shape (s : Statement) : String × List String := (s.sql, s.params.keys)

/-- The text of a piece; of a hole nothing is known but its place. -/
def Piece.shown : Piece → Option String
  | .text s => some s
  | .hole _ => none

def Template.shape (t : Template) : List (Option String) × List String :=
  (t.pieces.map Piece.shown, t.params.keys)

/-- From every counter the two end alike: in the same error, or in results that look the same, and
with as many names drawn. -/
def Indistinct {α β : Type} (view : α → β) (x y : Draw α) : Prop :=
  ∀ n, (x n).1.map view = (y n).1.map view ∧ (x n).2 = (y n).2

namespace Indistinct

variable {α β γ δ : Type} {view : α → β} {x y : Draw α}

theorem refl (x : Draw α) : Indistinct view x x := fun _ => ⟨rfl, rfl⟩

theorem ok {a b : α} (same : view a = view b) : Indistinct view (pure a) (pure b) := by
  intro n
  exact ⟨congrArg Except.ok same, rfl⟩

theorem bind {see : γ → δ} {f g : α → Draw γ} (h : Indistinct view x y)
    (later : ∀ a b, view a = view b → Indistinct see (f a) (g b)) :
    Indistinct see (x >>= f) (y >>= g) := by
  intro n
  obtain ⟨results, counters⟩ := h n
  rcases hx : x n with ⟨a | a, m⟩ <;> rcases hy : y n with ⟨b | b, m'⟩ <;>
    simp only [hx, hy, Except.map, reduceCtorEq, Except.ok.injEq,
      Except.error.injEq] at results counters
  · subst results counters
    rw [Effect.bind_error _ hx, Effect.bind_error _ hy]
    exact ⟨rfl, rfl⟩
  · subst counters
    rw [Effect.bind_ok _ hx, Effect.bind_ok _ hy]
    exact later a b results m

theorem bind_same {see : γ → δ} {f g : α → Draw γ}
    (later : ∀ a, Indistinct see (f a) (g a)) :
    Indistinct see (x >>= f) (x >>= g) := by
  have same : Indistinct id x x := refl x
  refine same.bind fun a b equal => ?_
  cases equal
  exact later a

theorem trans {z : Draw α} (h : Indistinct view x y) (h' : Indistinct view y z) :
    Indistinct view x z := fun n =>
  ⟨(h n).1.trans (h' n).1, (h n).2.trans (h' n).2⟩

theorem exists_ok (h : Indistinct view x y) {n m : Nat} {a : α} (left : x n = (.ok a, m)) :
    ∃ b, y n = (.ok b, m) ∧ view b = view a := by
  obtain ⟨results, counters⟩ := h n
  rcases right : y n with ⟨e | b, m'⟩ <;> rw [left, right] at results counters
  · cases results
  · subst counters
    exact ⟨b, rfl, (Except.ok.inj results).symm⟩

end Indistinct

theorem Template.fill_indistinct {t u : Template} (same : t.shape = u.shape) :
    Indistinct Statement.shape t.fill u.fill := by
  obtain ⟨ps, params⟩ := t
  obtain ⟨qs, params'⟩ := u
  simp only [shape, Prod.mk.injEq] at same
  obtain ⟨pieces, names⟩ := same
  have filled (n : Nat) : (fillPieces n ps).1.sql = (fillPieces n qs).1.sql ∧
      (fillPieces n ps).1.params.keys = (fillPieces n qs).1.params.keys ∧
      (fillPieces n ps).2 = (fillPieces n qs).2 := by
    induction ps generalizing qs n with
    | nil =>
      cases qs with
      | nil => simp
      | cons q rest => simp at pieces
    | cons p rest ih =>
      cases qs with
      | nil => simp at pieces
      | cons q rest' =>
        simp only [List.map_cons, List.cons.injEq] at pieces
        obtain ⟨here, later⟩ := pieces
        cases p <;> cases q <;> simp only [Piece.shown, reduceCtorEq, Option.some.injEq] at here
        · next s _ =>
          obtain ⟨sql, keys, counter⟩ := ih rest' later n
          subst here
          exact ⟨congrArg (s ++ ·) sql, keys, counter⟩
        · obtain ⟨sql, keys, counter⟩ := ih rest' later (n + 1)
          exact ⟨congrArg (":" ++ placeholderName (n + 1) ++ ·) sql,
            congrArg (placeholderName (n + 1) :: ·) keys, counter⟩
  intro n
  obtain ⟨sql, keys, counter⟩ := filled n
  refine ⟨congrArg Except.ok ?_, counter⟩
  simp only [Statement.shape, OrderedMap.keys_merge, sql, keys, names]

theorem listPieces_shown {vs ws : List Json} (same : vs.length = ws.length) :
    (listPieces vs).map Piece.shown = (listPieces ws).map Piece.shown := by
  induction vs generalizing ws with
  | nil =>
    cases List.length_eq_zero_iff.mp same.symm
    rfl
  | cons v vs ih =>
    cases ws with
    | nil => simp at same
    | cons w ws =>
      simp only [List.length_cons, Nat.add_right_cancel_iff] at same
      have rest := ih same
      cases vs <;> cases ws <;> simp at same <;> simp [listPieces, Piece.shown, rest]

theorem inOrEqual_shape (selector : String) {vs ws : List Json} (same : vs.length = ws.length)
    (negate : Bool) : (inOrEqual selector vs negate).shape =
    (inOrEqual selector ws negate).shape := by
  have pieces := listPieces_shown same
  match vs, ws with
  | [], [] => rfl
  | [_], [_] => rfl
  | _ :: _ :: _, _ :: _ :: _ => simp [inOrEqual, Template.shape, Piece.shown, pieces]

theorem Clauses.mergeAll_keys {m m' : Params} (keys : m.keys = m'.keys) {ss ts : List Statement}
    (same : ss.map Statement.shape = ts.map Statement.shape) :
    (mergeAll m ss).keys = (mergeAll m' ts).keys := by
  induction ss generalizing m m' ts with
  | nil =>
    cases List.map_eq_nil_iff.mp same.symm
    exact keys
  | cons s rest ih =>
    cases ts with
    | nil => simp at same
    | cons t rest' =>
      simp only [List.map_cons, List.cons.injEq, Statement.shape, Prod.mk.injEq] at same
      apply ih _ same.2
      rw [OrderedMap.keys_merge, OrderedMap.keys_merge, keys, same.1.2]

/-- A renderer that writes the same text for all lists of values of one length. -/
def Renderer.Blind (render : Renderer) : Prop :=
  ∀ selector (vs ws : List Json) d, vs.length = ws.length →
    (render selector vs d).map Template.shape = (render selector ws d).map Template.shape

theorem neverTrue_blind : Renderer.Blind neverTrue := by
  intro _ _ _ _ _
  rfl

namespace Predicate

open Clauses (mergeAll_keys)

/-- The same comparison, with other values. -/
structure Similar (p q : Predicate) : Prop where
  selector : p.selector = q.selector
  operator : p.operator = q.operator
  length : p.values.length = q.values.length
  subquery : p.subquery.map Template.shape = q.subquery.map Template.shape
  rawConditions : p.rawConditions = q.rawConditions
  renderer : p.renderer = q.renderer
  blind : ∀ render, p.renderer = some render → render.Blind

variable {p q : Predicate}

theorem Similar.compare (h : p.Similar q) {f g : Json → Template}
    (same : ∀ v w, (f v).shape = (g w).shape) :
    (p.firstValue >>= fun v => pure (f v)).map Template.shape =
      (q.firstValue >>= fun w => pure (g w)).map Template.shape := by
  have length := h.length
  unfold Predicate.firstValue emptyError
  rw [h.selector, h.operator]
  rcases ps : p.values with _ | ⟨v, vs⟩ <;> rcases qs : q.values with _ | ⟨w, ws⟩ <;>
    simp [ps, qs] at length
  · rfl
  · exact congrArg Except.ok (same v w)

theorem Similar.within (h : p.Similar q) (negation : String) :
    (base.within p negation).map Template.shape = (base.within q negation).map Template.shape := by
  have subquery := h.subquery
  unfold base.within emptyError
  rw [h.selector, h.operator]
  cases hp : p.subquery <;> cases hq : q.subquery <;> simp [hp, hq] at subquery
  · rfl
  · simp only [Template.shape, Prod.mk.injEq] at subquery
    simp [Except.map, Template.shape, subquery]

theorem Similar.base (h : p.Similar q) (d : Dialect) :
    (p.base d).map Template.shape = (q.base d).map Template.shape := by
  have empty : p.values.isEmpty = q.values.isEmpty := by
    rw [Bool.eq_iff_iff, List.isEmpty_iff_length_eq_zero, List.isEmpty_iff_length_eq_zero, h.length]
  have error : p.emptyError = q.emptyError := by rw [emptyError, emptyError, h.selector, h.operator]
  have op := h.operator.symm
  cases operator : p.operator <;> rw [operator] at op <;>
    simp only [Predicate.base, operator, op]
  case inList | notInList =>
    rw [← empty, error, h.selector]
    split
    · rfl
    · exact congrArg Except.ok (inOrEqual_shape _ h.length _)
  case inQuery | notInQuery => exact h.within _
  case custom =>
    rw [← h.renderer, h.selector]
    split
    · next render given => exact h.blind render given _ _ _ _ h.length
    · rfl
  case unsupported => rw [h.selector]
  all_goals
    rw [h.selector]
    apply h.compare
    intro v w
    rfl

theorem Similar.template (h : p.Similar q) (d : Dialect) :
    (p.template d).map Template.shape = (q.template d).map Template.shape := by
  have base := h.base d
  unfold Predicate.template
  rw [← h.rawConditions]
  cases hp : p.base d <;> cases hq : q.base d <;> simp [hp, hq, Except.map] at base
  · exact congrArg Except.error base
  · simp only [Template.shape, Prod.mk.injEq] at base
    obtain ⟨pieces, names⟩ := base
    simp only [bind, Except.bind]
    split
    · exact congrArg Except.ok (congrArg₂ Prod.mk pieces names)
    · refine congrArg Except.ok (congrArg₂ Prod.mk ?_ (mergeAll_keys names rfl))
      simp [pieces]

end Predicate

namespace Clauses

theorem sql_of_shape {ss ts : List Statement}
    (same : ss.map Statement.shape = ts.map Statement.shape) :
    ss.map (·.sql) = ts.map (·.sql) := by
  have texts := congrArg (List.map Prod.fst) same
  simpa [Statement.shape, Function.comp_def] using texts

/-- The clauses with other raw conditions. -/
def withRaw (c : Clauses) (raw having : List Statement) : Clauses :=
  { c with rawWhere := raw, rawHaving := having }

variable {c : Clauses} {d : Dialect} {raw raw' having having' : List Statement}

theorem whereBody_indistinct (same : raw.map Statement.shape = raw'.map Statement.shape) :
    Indistinct (Option.map Statement.shape) ((c.withRaw raw having).whereBody d)
      ((c.withRaw raw' having').whereBody d) := by
  refine Indistinct.bind_same fun rendered => ?_
  have parts (fs : List (Conjunction × String)) : whereParts fs raw = whereParts fs raw' := by
    have texts := congrArg (List.map fun s => "(" ++ s ++ ")") (sql_of_shape same)
    simp only [List.map_map, Function.comp_def] at texts
    rw [whereParts, whereParts, texts]
  dsimp only [withRaw, id]
  rw [parts]
  split
  · exact Indistinct.refl _
  · apply Indistinct.ok
    simp [Statement.shape, mergeAll_keys rfl same]

theorem assemble_indistinct (inWhere : raw.map Statement.shape = raw'.map Statement.shape)
    (inHaving : having.map Statement.shape = having'.map Statement.shape) (source : Statement) :
    Indistinct Statement.shape ((c.withRaw raw having).assemble d source)
      ((c.withRaw raw' having').assemble d source) := by
  have havingSql : (c.withRaw raw having).havingSql = (c.withRaw raw' having').havingSql := by
    have texts := congrArg (List.map fun s => "(" ++ s ++ ")") (sql_of_shape inHaving)
    simp only [List.map_map, Function.comp_def] at texts
    have lengths := congrArg List.length inHaving
    cases having <;> cases having' <;> simp only [List.length_map, List.length_cons,
      List.length_nil, Nat.add_one_ne_zero, Nat.zero_ne_add_one] at lengths
    · rfl
    · exact congrArg (fun parts => " HAVING " ++ Text.join " AND " parts) texts
  have text (condition : String) : (c.withRaw raw having).expandRefs
      ((c.withRaw raw having).text d source.sql condition) =
      (c.withRaw raw' having').expandRefs
      ((c.withRaw raw' having').text d source.sql condition) := by
    rw [Clauses.text, Clauses.text, havingSql]
    rfl
  refine Indistinct.bind (whereBody_indistinct inWhere) fun b b' bodies => ?_
  cases b <;> cases b' <;> simp only [Option.map, reduceCtorEq, Option.some.injEq] at bodies
  · apply Indistinct.ok
    exact congrArg₂ Prod.mk (text "") (mergeAll_keys rfl inHaving)
  · simp only [Statement.shape, Prod.mk.injEq] at bodies
    apply Indistinct.ok
    refine congrArg₂ Prod.mk ?_ (mergeAll_keys ?_ inHaving)
    · rw [bodies.1]
      exact text _
    · rw [OrderedMap.keys_merge, OrderedMap.keys_merge, bodies.2]
      rfl

/-- Of its raw conditions a statement shows only the shapes. -/
theorem renderOver_indistinct (inWhere : raw.map Statement.shape = raw'.map Statement.shape)
    (inHaving : having.map Statement.shape = having'.map Statement.shape) (source : Source) :
    Indistinct Statement.shape ((c.withRaw raw having).renderOver d source)
      ((c.withRaw raw' having').renderOver d source) := by
  cases source with
  | none => exact Indistinct.refl _
  | table name correlation => exact assemble_indistinct inWhere inHaving _
  | derived inner source correlation =>
    refine Indistinct.bind_same fun s => ?_
    exact assemble_indistinct inWhere inHaving _

end Clauses

end Reports.Sql
