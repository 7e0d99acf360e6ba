import Reports.Proofs.Sql.Condition
import Reports.Proofs.Sql.Grammar
import Reports.Proofs.Text.Decimal

/-! Templates whose texts hold no quotes, colons and braces. Filled, they have the placeholders that
were drawn and no others, and bind their values in the order of the holes. -/
namespace Reports.Sql

theorem lexemes_harmless {cs : List Char} (harmless : cs.all isHarmless = true) (rest : List Char) :
    lexemes (cs ++ rest) = cs.map .other ++ lexemes rest := by
  induction cs with
  | nil => rfl
  | cons c later ih =>
    obtain ⟨here, others⟩ := Bool.and_eq_true_iff.mp harmless
    have parts : (c ≠ ':' ∧ TableRef.isQuote c = false) ∧ c ≠ '\x7b' := by
      simpa [isHarmless] using here
    rw [List.cons_append, lexemes_other parts.1.2 parts.1.1, ih others]
    rfl

theorem lexemes_placeholder (n : Nat) {rest : List Char} (ends : Text.Ends Text.isNameChar rest) :
    lexemes (':' :: ((placeholderName n).toList ++ rest)) =
      .placeholder (placeholderName n).toList :: lexemes rest := by
  have names (c : Char) (mem : c ∈ 'p' :: (Text.decimal n).toList) :
      Text.isNameChar c = true := by
    apply isNameChar_of_mem_placeholderName (n := n)
    rw [placeholderName_toList]
    exact List.mem_cons_of_mem _ mem
  have quote : TableRef.isQuote ':' = false := by decide
  have start : Text.isNameStart 'q' = true := by decide
  rw [placeholderName_toList, List.cons_append, lexemes, if_neg (by rw [quote]; decide), if_pos rfl,
    if_neg (by decide), if_pos start, Text.takeWhile_run names ends, Text.dropWhile_run names ends]

namespace Template

/-- Texts without quotes, colons and braces. What stands behind a hole ends a name. -/
def Plain : List Piece → Prop
  | [] => True
  | .text s :: rest => Harmless s ∧ Plain rest
  | .hole _ :: rest =>
    (∀ n, Text.Ends Text.isNameChar (fillPieces n rest).1.sql.toList) ∧ Plain rest

def drawnNames (n : Nat) (ps : List Piece) : List String :=
  (List.range' (n + 1) (holeValues ps).length).map placeholderName

theorem nodup_drawnNames (n : Nat) (ps : List Piece) : (drawnNames n ps).Nodup :=
  List.Nodup.map (fun _ _ => placeholderName_injective) List.nodup_range'

theorem drawnNames_hole (n : Nat) (v : Json) (rest : List Piece) :
    drawnNames n (.hole v :: rest) = placeholderName (n + 1) :: drawnNames (n + 1) rest := by
  rw [drawnNames, holeValues, List.length_cons, List.range'_succ, List.map_cons, drawnNames]

variable {ps : List Piece}

theorem placeholders_fill (plain : Plain ps) (n : Nat) :
    placeholders (lexemes (fillPieces n ps).1.sql.toList) = drawnNames n ps := by
  induction ps generalizing n with
  | nil => simp [fillPieces, lexemes, placeholders, drawnNames, holeValues]
  | cons p rest ih =>
    cases p with
    | text s =>
      have none (cs : List Char) : placeholders (cs.map .other) = [] := by
        simp [placeholders, List.filterMap_map, Function.comp_def, Lexeme.name?]
      rw [fillPieces, String.toList_append, lexemes_harmless plain.1, placeholders,
        List.filterMap_append]
      change placeholders _ ++ placeholders _ = _
      rw [none, List.nil_append, ih plain.2]
      rfl
    | hole v =>
      have text : (fillPieces n (.hole v :: rest)).1.sql.toList = ':' ::
          ((placeholderName (n + 1)).toList ++ (fillPieces (n + 1) rest).1.sql.toList) := by
        simp [fillPieces]
      rw [text, lexemes_placeholder _ (plain.1 (n + 1)), drawnNames_hole, ← ih plain.2 (n + 1)]
      simp [placeholders, Lexeme.name?]

theorem braceless_fill (plain : Plain ps) (n : Nat) :
    '\x7b' ∉ (fillPieces n ps).1.sql.toList := by
  induction ps generalizing n with
  | nil => exact List.not_mem_nil
  | cons p rest ih =>
    cases p with
    | text s =>
      have here : '\x7b' ∉ s.toList :=
        fun mem => absurd (List.all_eq_true.mp plain.1 _ mem) (by decide)
      simpa [fillPieces, here] using ih plain.2 n
    | hole v =>
      have here : '\x7b' ∉ (placeholderName (n + 1)).toList := fun mem =>
        absurd (isNameChar_of_mem_placeholderName mem) (by decide)
      simpa [fillPieces, here] using ih plain.2 (n + 1)

theorem entries_fillPieces (n : Nat) (ps : List Piece) :
    (fillPieces n ps).1.params.entries = (drawnNames n ps).zip (holeValues ps) := by
  induction ps generalizing n with
  | nil => rfl
  | cons p rest ih =>
    cases p with
    | text s => exact ih n
    | hole v => rw [drawnNames_hole, fillPieces, holeValues, List.zip_cons_cons, ← ih (n + 1)]

theorem ends_fill {c : Char} (cs : List Char) (stops : Text.isNameChar c = false) (n : Nat)
    (rest : List Piece) :
    Text.Ends Text.isNameChar
      (fillPieces n (.text (String.ofList (c :: cs)) :: rest)).1.sql.toList := by
  rw [fillPieces, String.toList_append, String.toList_ofList]
  exact Text.ends_cons stops

theorem plain_listPieces (vs : List Json) : Plain (listPieces vs ++ [.text ")"]) := by
  have close : Plain [.text ")"] := ⟨by decide, trivial⟩
  fun_induction listPieces vs with
  | case1 => exact close
  | case2 v => exact ⟨fun n => ends_fill (c := ')') [] (by decide) n [], close⟩
  | case3 v w rest ih =>
    exact ⟨fun n => ends_fill (c := ',') [' '] (by decide) n _, by decide, ih⟩

theorem params_inOrEqual (selector : String) (vs : List Json) (negate : Bool) :
    (inOrEqual selector vs negate).params = ∅ := by
  unfold inOrEqual
  split <;> rfl

theorem plain_inOrEqual {selector : String} (harmless : Harmless selector) (vs : List Json)
    (negate : Bool) : Plain (inOrEqual selector vs negate).pieces := by
  unfold inOrEqual
  split
  · exact ⟨harmless.append (by cases negate <;> decide), fun n => Text.ends_nil, trivial⟩
  · exact ⟨harmless.append (by cases negate <;> decide), plain_listPieces vs⟩

theorem length_drawnNames (n : Nat) (ps : List Piece) :
    (drawnNames n ps).length = (holeValues ps).length := by simp [drawnNames]

theorem keys_fillPieces (n : Nat) (ps : List Piece) :
    (fillPieces n ps).1.params.keys = drawnNames n ps := by
  rw [OrderedMap.keys, entries_fillPieces, List.map_fst_zip (length_drawnNames n ps).le]

theorem nodup_keys_fillPieces (n : Nat) (ps : List Piece) :
    (fillPieces n ps).1.params.keys.Nodup := by
  rw [keys_fillPieces]
  exact nodup_drawnNames n ps

theorem fill_bare {t : Template} (bare : t.params = ∅) (n : Nat) :
    t.fill n = (.ok (fillPieces n t.pieces).1, (fillPieces n t.pieces).2) := by
  rw [fill, bare]
  rfl

theorem bind_fillPieces (plain : Plain ps) (n : Nat) (d : Dialect) :
    ∃ b, (fillPieces n ps).1.bind d = .ok b ∧ b.values = holeValues ps := by
  have distinct := nodup_drawnNames n ps
  have length := length_drawnNames n ps
  have given (i : Nat) (here : i < (drawnNames n ps).length) :
      (fillPieces n ps).1.params.get? (drawnNames n ps)[i] = some (holeValues ps)[i] := by
    apply OrderedMap.get?_of_mem_entries (nodup_keys_fillPieces n ps)
    rw [entries_fillPieces]
    have inside : i < ((drawnNames n ps).zip (holeValues ps)).length := by
      simpa [← length] using here
    have zipped := List.getElem_mem inside
    rwa [List.getElem_zip] at zipped
  have contained : (drawnNames n ps).find?
      (fun name => !(fillPieces n ps).1.params.contains name) = none := by
    simp only [List.find?_eq_none, List.mem_iff_getElem]
    rintro _ ⟨i, here, rfl⟩
    simp [OrderedMap.contains, given i here]
  have names := placeholders_fill plain n
  rw [Statement.bind_outcome, Binding.outcome, Statement.lexemes, names, contained]
  refine ⟨_, rfl, ?_⟩
  rw [List.eraseDups_of_nodup distinct]
  apply List.ext_getElem (by simp [length])
  intro i here there
  rw [List.getElem_map, Binding.given, given i (by simpa using here)]
  rfl

end Template

end Reports.Sql
