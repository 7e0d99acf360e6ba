import Reports.Proofs.Sql.Outline

/-! The fragments that predicates contribute: which texts and values they are made of. -/
namespace Reports.Sql

def isHarmless (c : Char) : Bool := c != ':' && !TableRef.isQuote c && c != '\x7b'

/-- What the renderer itself may write between the parts. -/
def Harmless (s : String) : Prop := s.toList.all isHarmless = true

instance (s : String) : Decidable (Harmless s) := inferInstanceAs (Decidable (_ = _))

theorem Harmless.append {s t : String} (hs : Harmless s) (ht : Harmless t) : Harmless (s ++ t) := by
  rw [Harmless, String.toList_append, List.all_append, hs, ht]
  rfl

theorem harmless_decimal (n : Nat) : Harmless (Text.decimal n) := by
  apply List.all_eq_true.mpr
  intro c hc
  have digit := Text.isDigit_of_mem_decimal hc
  have word : Text.isNameChar c = true := by simp [Text.isNameChar, digit]
  have quote := TableRef.isQuote_of_isNameChar word
  have colon : c ≠ ':' := by
    rintro rfl
    exact absurd digit (by decide)
  have brace : c ≠ '\x7b' := by
    rintro rfl
    exact absurd digit (by decide)
  simp [isHarmless, quote, colon, brace]

namespace Template

theorem holeValues_append (ps qs : List Piece) :
    holeValues (ps ++ qs) = holeValues ps ++ holeValues qs := by
  induction ps with
  | nil => rfl
  | cons p rest ih => cases p <;> simp [holeValues, ih]

theorem holeValues_listPieces (vs : List Json) : holeValues (listPieces vs) = vs := by
  fun_induction listPieces vs with
  | case1 => rfl
  | case2 v => rfl
  | case3 v w rest ih => simp [holeValues, ih]

theorem holeValues_inOrEqual (selector : String) (vs : List Json) (negate : Bool) :
    holeValues (inOrEqual selector vs negate).pieces = vs := by
  unfold inOrEqual
  split
  · rfl
  · simp [holeValues, holeValues_append, holeValues_listPieces]

end Template

namespace Predicate

/-- The values a predicate draws names for: the first value for comparisons and patterns, all values
for lists, and what the fragment of a sub-query or a renderer holds. -/
def drawnValues (d : Dialect) (p : Predicate) : List Json :=
  match p.operator with
  | .inList | .notInList => p.values
  | .likeWildcard => (p.values.take 1).map fun v => .string (substringPattern v.plain)
  | .inQuery | .notInQuery => (p.subquery.map fun q => Template.holeValues q.pieces).getD []
  | .custom =>
    match p.base d with
    | .ok t => Template.holeValues t.pieces
    | .error _ => []
  | .unsupported _ => []
  | _ => p.values.take 1

def comparisonWords : List String := ["=", "<>", "<", ">", "<=", ">=", "LIKE", "ILIKE"]

theorem harmless_of_mem_comparisonWords {s : String} (word : s ∈ comparisonWords) :
    Harmless s := by
  have all : ∀ s ∈ comparisonWords, Harmless s := by decide
  exact all s word

theorem likeKeyword_mem (d : Dialect) : d.likeKeyword ∈ comparisonWords := by cases d <;> decide

/-- What a comparison can look like, and the values it draws names for. -/
inductive Form (d : Dialect) (p : Predicate) : Template → List Json → Prop
  | list (negate : Bool) : Form d p (inOrEqual p.selector p.values negate) p.values
  | comparison {s : String} (v : Json) : s ∈ comparisonWords →
    Form d p ⟨[.text (p.selector ++ " " ++ s ++ " "), .hole v], ∅⟩ [v]
  | pattern {s : String} (v : Json) : s ∈ comparisonWords →
    Form d p ⟨[.text (p.selector ++ " " ++ s ++ " "), .hole v, .text " ESCAPE '\\'"], ∅⟩ [v]
  | subquery {q : Template} {negation : String} : p.subquery = some q →
    negation ∈ ["", "NOT "] →
    Form d p ⟨.text (p.selector ++ " " ++ negation ++ "IN (") :: q.pieces ++
      [.text ")"], q.params⟩
      (Template.holeValues q.pieces)
  | renderer {render : Renderer} {t : Template} : p.renderer = some render →
    render p.selector p.values d = .ok t → Form d p t (Template.holeValues t.pieces)

theorem take_of_firstValue {p : Predicate} {v : Json} (given : p.firstValue = .ok v) :
    p.values.take 1 = [v] := by
  unfold firstValue at given
  split at given
  · cases given
  · next values =>
    cases given
    rw [values]
    rfl

theorem base_form {d : Dialect} {p : Predicate} {t : Template} (found : p.base d = .ok t) :
    p.Form d t (p.drawnValues d) := by
  cases op : p.operator with
  | inList =>
    simp only [base, op] at found
    split at found
    · cases found
    · cases found
      simp only [drawnValues, op]
      exact .list false
  | notInList =>
    simp only [base, op] at found
    split at found
    · cases found
    · cases found
      simp only [drawnValues, op]
      exact .list true
  | inQuery =>
    simp only [base, op, base.within] at found
    split at found
    · next q given =>
      cases found
      simp only [drawnValues, op, given]
      exact .subquery given (by decide)
    · cases found
  | notInQuery =>
    simp only [base, op, base.within] at found
    split at found
    · next q given =>
      cases found
      simp only [drawnValues, op, given]
      exact .subquery given (by decide)
    · cases found
  | like =>
    simp only [base, op] at found
    obtain ⟨v, given, written⟩ := Effect.ok_of_bind found
    cases written
    simp only [drawnValues, op, take_of_firstValue given]
    exact .comparison v (likeKeyword_mem d)
  | likeWildcard =>
    simp only [base, op] at found
    obtain ⟨v, given, written⟩ := Effect.ok_of_bind found
    cases written
    simp only [drawnValues, op, take_of_firstValue given, List.map_cons, List.map_nil]
    exact .pattern _ (likeKeyword_mem d)
  | custom =>
    have whole := found
    simp only [base, op] at found
    split at found
    · next render given =>
      simp only [drawnValues, op, whole]
      exact .renderer given found
    · cases found
  | unsupported name =>
    simp only [base, op] at found
    cases found
  | _ =>
    -- the six comparisons
    simp only [base, op] at found
    obtain ⟨v, given, written⟩ := Effect.ok_of_bind found
    cases written
    simp only [drawnValues, op, take_of_firstValue given]
    exact .comparison v (by decide)

theorem holeValues_base {d : Dialect} {p : Predicate} {t : Template} (found : p.base d = .ok t) :
    Template.holeValues t.pieces = p.drawnValues d := by
  have form := base_form found
  generalize p.drawnValues d = vs at form
  cases form with
  | list negate => exact Template.holeValues_inOrEqual _ _ _
  | comparison v _ => rfl
  | pattern v _ => rfl
  | subquery _ _ => simp [Template.holeValues, Template.holeValues_append]
  | renderer _ _ => rfl

theorem holeValues_template {d : Dialect} {p : Predicate} {t : Template}
    (found : p.template d = .ok t) : Template.holeValues t.pieces = p.drawnValues d := by
  rw [template] at found
  cases comparison : p.base d with
  | error e => rw [comparison] at found; cases found
  | ok t' =>
    have inner := holeValues_base comparison
    rw [comparison] at found
    by_cases none : p.rawConditions.isEmpty = true
    · simp only [bind, Except.bind, none, if_true] at found
      cases found
      exact inner
    · simp only [bind, Except.bind, none] at found
      cases found
      simpa [Template.holeValues, Template.holeValues_append] using inner

end Predicate

end Reports.Sql
