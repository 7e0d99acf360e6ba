import Reports.Proofs.Sql.Weaving

/-! Holes that stand apart: outside quotes, not right behind a colon, and with nothing right after
them that a scanner could take for a part of a name. -/
namespace Reports.Sql

/-- Where a text stands after some of it was read. -/
inductive Place
  | plain
  | colon
  | quoted (quote : Char)
  deriving DecidableEq

namespace Place

def next : Place → Char → Place
  | quoted q, c => if c = q then plain else quoted q
  | _, c => if c = ':' then colon else if TableRef.isQuote c then quoted c else plain

def isOpen : Place → Bool
  | quoted _ => false
  | _ => true

theorem next_of_isOpen {p : Place} (isOpen : p.isOpen = true) (c : Char) :
    p.next c = plain.next c := by
  cases p with
  | plain => rfl
  | colon => rfl
  | quoted q => cases isOpen

end Place

namespace Marked

def after (p : Place) : Marked → Place
  | [] => p
  | .char c :: rest => after (p.next c) rest
  | .hole _ :: rest => after p rest

def Apart (p : Place) : Marked → Prop
  | [] => True
  | .char c :: rest => Apart (p.next c) rest
  | .hole _ :: rest => p = .plain ∧ StartsApart rest ∧ Apart .plain rest

def EndsWord : Marked → Prop
  | .char c :: _ => Text.isWordChar c = false
  | _ => True

/-- Every hole stands where it is found as a whole. This says less than that it stands apart:
another hole or a brace may follow. -/
def Parted (p : Place) : Marked → Prop
  | [] => True
  | .char c :: rest => Parted (p.next c) rest
  | .hole _ :: rest => p = .plain ∧ EndsWord rest ∧ Parted .plain rest

instance : DecidablePred EndsWord := fun a =>
  match a with
  | .char c :: _ => inferInstanceAs (Decidable (Text.isWordChar c = false))
  | .hole _ :: _ => inferInstanceAs (Decidable True)
  | [] => inferInstanceAs (Decidable True)

instance (p : Place) : DecidablePred (Parted p) := go p
where
  go (p : Place) : (a : Marked) → Decidable (Parted p a)
    | [] => inferInstanceAs (Decidable True)
    | .char c :: rest => go (p.next c) rest
    | .hole _ :: rest =>
      have := go .plain rest
      inferInstanceAs (Decidable (p = .plain ∧ EndsWord rest ∧ Parted .plain rest))

/-- Holes stand apart, and quotes are balanced. -/
structure Neat (a : Marked) : Prop where
  apart : Apart .plain a
  closed : (after .plain a).isOpen = true

theorem not_isWordChar_of_isApart {c : Char} (apart : isApart c = true) :
    Text.isWordChar c = false := by
  rw [isApart, Bool.and_eq_true, Bool.not_eq_true'] at apart
  exact apart.1

theorem Apart.parted {p : Place} {a : Marked} (apart : Apart p a) : Parted p a := by
  induction a generalizing p with
  | nil => trivial
  | cons x rest ih =>
    cases x with
    | char c => exact ih apart
    | hole i =>
      obtain ⟨place, starts, later⟩ := apart
      refine ⟨place, ?_, ih later⟩
      cases rest with
      | nil => trivial
      | cons y rest =>
        cases y with
        | char c => exact not_isWordChar_of_isApart starts
        | hole j => exact absurd starts id

theorem after_append (p : Place) (a b : Marked) : after p (a ++ b) = after (after p a) b := by
  induction a generalizing p with
  | nil => rfl
  | cons x rest ih => cases x <;> exact ih _

theorem after_of_startsApart {p : Place} (isOpen : p.isOpen = true) {b : Marked}
    (hb : StartsApart b) (closed : (after .plain b).isOpen = true) :
    (after p b).isOpen = true := by
  cases b with
  | nil => exact isOpen
  | cons x rest =>
    cases x with
    | char c => rwa [after, Place.next_of_isOpen isOpen]
    | hole i => exact absurd hb id

theorem apart_of_startsApart {p : Place} (isOpen : p.isOpen = true) {b : Marked}
    (hb : StartsApart b) (apart : Apart .plain b) : Apart p b := by
  cases b with
  | nil => trivial
  | cons x rest =>
    cases x with
    | char c => rwa [Apart, Place.next_of_isOpen isOpen]
    | hole i => exact absurd hb id

theorem apart_append {p : Place} {a b : Marked} (ha : Apart p a) (hs : StartsApart b)
    (hb : Apart (after p a) b) : Apart p (a ++ b) := by
  induction a generalizing p with
  | nil => exact hb
  | cons x rest ih =>
    cases x with
    | char c => exact ih ha hb
    | hole i =>
      obtain ⟨rfl, starts, ha⟩ := ha
      exact ⟨rfl, startsApart_append starts hs, ih ha hb⟩

theorem after_harmless {s : List Char} (harmless : s.all isHarmless = true) :
    after .plain (ofChars s) = .plain := by
  induction s with
  | nil => rfl
  | cons c rest ih =>
    rw [List.all_cons, Bool.and_eq_true] at harmless
    obtain ⟨here, later⟩ := harmless
    have stays : Place.plain.next c = .plain := by
      simp only [isHarmless, Bool.and_eq_true, bne_iff_ne, Bool.not_eq_true'] at here
      simp [Place.next, here]
    rw [ofChars_cons, after, stays, ih later]

theorem apart_ofChars (p : Place) (s : List Char) : Apart p (ofChars s) := by
  induction s generalizing p with
  | nil => trivial
  | cons c rest ih => exact ih (p.next c)

theorem apart_ofChars_append {p : Place} (s : List Char) {a : Marked}
    (ha : Apart (after p (ofChars s)) a) : Apart p (ofChars s ++ a) := by
  induction s generalizing p with
  | nil => exact ha
  | cons c rest ih => exact ih ha

end Marked

theorem Place.next_of_isNameChar {p : Place} (isOpen : p.isOpen = true) {c : Char}
    (h : Text.isNameChar c = true) : p.next c = .plain := by
  have colon : c ≠ ':' := by
    rintro rfl
    exact absurd h (by decide)
  rw [next_of_isOpen isOpen]
  simp [next, colon, TableRef.isQuote_of_isNameChar h]

namespace Marked

open TableRef

theorem after_isOpen_ofChars {p : Place} (isOpen : p.isOpen = true) {cs : List Char}
    (closed : (after .plain (ofChars cs)).isOpen = true) :
    (after p (ofChars cs)).isOpen = true := by
  cases cs with
  | nil => exact isOpen
  | cons c rest => rwa [ofChars_cons, after, Place.next_of_isOpen isOpen]

theorem after_name {p : Place} (isOpen : p.isOpen = true) {cs : List Char} (some : cs ≠ [])
    (names : ∀ c ∈ cs, Text.isNameChar c = true) : after p (ofChars cs) = .plain := by
  induction cs generalizing p with
  | nil => exact absurd rfl some
  | cons c rest ih =>
    rw [ofChars_cons, after, Place.next_of_isNameChar isOpen (names c List.mem_cons_self)]
    cases rest with
    | nil => rfl
    | cons d rest => exact ih rfl (by simp) fun x hx => names x (List.mem_cons_of_mem _ hx)

/-- How the places before and after expanding go together. -/
def Along : State → Place → Place → Prop
  | .plain, p, p' => p = p' ∧ p.isOpen = true
  | .quoted q, p, p' => p = .quoted q ∧ p' = .quoted q
  | .braced name, p, p' =>
    p = .plain ∧ p'.isOpen = true ∧ ∀ c ∈ name, Text.isNameChar c = true

def Closing (table : String → String) : Prop :=
  ∀ name p, p.isOpen = true → name ≠ [] → (∀ c ∈ name, Text.isNameChar c = true) →
    after p (ofText (table (String.ofList name))) = .plain

theorem after_held {p : Place} (isOpen : p.isOpen = true) {name : List Char}
    (names : ∀ c ∈ name, Text.isNameChar c = true) :
    after p (ofChars (held name)) = .plain := by
  have brace : p.next '\x7b' = .plain := by rw [Place.next_of_isOpen isOpen]; rfl
  rw [held, ofChars_cons, after, brace]
  by_cases none : name.reverse = []
  · rw [none]
    rfl
  · exact after_name rfl none fun c hc => names c (List.mem_reverse.mp hc)

theorem along_stepPlain {p : Place} (isOpen : p.isOpen = true) (c : Char) :
    Along (stepPlain c).2 (p.next c) (after p (ofChars (stepPlain c).1)) := by
  rw [Place.next_of_isOpen isOpen]
  unfold stepPlain
  split
  · next h =>
    subst h
    exact ⟨rfl, isOpen, fun c hc => absurd hc List.not_mem_nil⟩
  · split
    · next quote =>
      have colon : c ≠ ':' := by
        rintro rfl
        exact absurd quote (by decide)
      have opened : Place.plain.next c = .quoted c := by simp [Place.next, colon, quote]
      exact ⟨opened, by rw [ofChars_cons, after, Place.next_of_isOpen isOpen, opened]; rfl⟩
    · next quote =>
      have stays : (Place.plain.next c).isOpen = true := by
        by_cases colon : c = ':' <;> simp [Place.next, colon, quote, Place.isOpen]
      exact ⟨by simp [after, Place.next_of_isOpen isOpen], stays⟩

theorem along_step {table : String → String} (closing : Closing table) {s : State} {p p' : Place}
    (along : Along s p p') (c : Char) :
    Along ((scanner table).step s c).2 (p.next c)
      (after p' (ofChars ((scanner table).step s c).1)) := by
  cases s with
  | plain =>
    obtain ⟨rfl, isOpen⟩ := along
    exact along_stepPlain isOpen c
  | quoted q =>
    obtain ⟨rfl, rfl⟩ := along
    by_cases h : c = q <;> simp [scanner, h, Along, after, Place.next, Place.isOpen]
  | braced name =>
    obtain ⟨rfl, isOpen, names⟩ := along
    by_cases closes : c = '\x7d' ∧ name ≠ []
    · rw [step_closes table closes]
      obtain ⟨rfl, some⟩ := closes
      have put := closing name.reverse p' isOpen (by simpa using some) fun c hc =>
        names c (List.mem_reverse.mp hc)
      exact ⟨put.symm, rfl⟩
    · by_cases goesOn : continues name c = true
      · have here := isNameChar_of_continues goesOn
        rw [step_continues table goesOn]
        exact ⟨Place.next_of_isNameChar rfl here, isOpen, List.forall_mem_cons.mpr ⟨here, names⟩⟩
      · rw [step_stops table closes (Bool.eq_false_iff.mpr goesOn), ofChars_append, after_append,
          after_held isOpen names]
        exact along_stepPlain rfl c

theorem startsApart_expandMarked {table : String → String} {a : Marked} (starts : StartsApart a) :
    StartsApart (expandMarked table .plain a) := by
  cases a with
  | nil => trivial
  | cons x rest =>
    cases x with
    | hole i => exact absurd starts id
    | char c =>
      have brace : c ≠ '\x7b' := by
        rintro rfl
        have apart : isApart '\x7b' = true := starts
        exact absurd apart (by decide)
      have step : (stepPlain c).1 = [c] := by
        unfold stepPlain
        rw [if_neg brace]
        split <;> rfl
      have first : expandMarked table .plain (.char c :: rest) =
          ofChars (stepPlain c).1 ++ expandMarked table (stepPlain c).2 rest := rfl
      rw [first, step]
      exact starts

theorem apart_expandMarked {table : String → String} (closing : Closing table) {a : Marked}
    {s : State} {p p' : Place} (along : Along s p p') (apart : Apart p a) :
    Apart p' (expandMarked table s a) ∧
      (after p' (expandMarked table s a)).isOpen = (after p a).isOpen := by
  induction a generalizing s p p' with
  | nil =>
    refine ⟨apart_ofChars _ _, ?_⟩
    cases s with
    | plain => rw [along.1]; rfl
    | quoted q => rw [along.1, along.2]; rfl
    | braced name => rw [along.1, expandMarked, scanner, after_held along.2.1 along.2.2]; rfl
  | cons x rest ih =>
    cases x with
    | char c =>
      obtain ⟨later, same⟩ := ih (along_step closing along c) apart
      exact ⟨apart_ofChars_append _ later, by rw [expandMarked, after_append, same]; rfl⟩
    | hole i =>
      obtain ⟨rfl, starts, restApart⟩ := apart
      have released : after p' (ofChars ((scanner table).finish s)) = .plain := by
        cases s with
        | plain => exact along.1.symm
        | quoted q => cases along.1
        | braced name => exact after_held along.2.1 along.2.2
      have goesOn : afterHole s = .plain := by
        cases s with
        | quoted q => cases along.1
        | plain => rfl
        | braced name => rfl
      have start : Along .plain .plain .plain := ⟨rfl, rfl⟩
      obtain ⟨later, same⟩ := ih start restApart
      rw [expandMarked, goesOn]
      refine ⟨apart_ofChars_append _ ?_, ?_⟩
      · rw [released]
        exact ⟨rfl, startsApart_expandMarked starts, later⟩
      · rw [after_append, released]
        exact same

theorem closing_tableRef {c : Clauses}
    (closed : (after .plain (ofText c.tablePrefix)).isOpen = true) : Closing c.tableRef := by
  intro name p isOpen some names
  unfold Clauses.tableRef
  split
  · rw [ofText, String.toList_ofList]
    exact after_name isOpen some names
  · rw [ofText_append, after_append, ofText, ofText, String.toList_ofList]
    exact after_name (after_isOpen_ofChars isOpen closed) some names

theorem weaves_neat : Weaves Neat fun tablePrefix => Neat (ofText tablePrefix) where
  nil := ⟨trivial, rfl⟩
  hole _ := ⟨⟨rfl, trivial, trivial⟩, rfl⟩
  lead harmless ha := by
    have stays := after_harmless harmless
    refine ⟨apart_ofChars_append _ (by rw [stays]; exact ha.apart), ?_⟩
    rw [after_append, ofText, stays]
    exact ha.closed
  append ha hb starts := by
    refine ⟨apart_append ha.apart starts (apart_of_startsApart ha.closed starts hb.apart), ?_⟩
    rw [after_append]
    exact after_of_startsApart ha.closed starts hb.closed
  escape := ⟨apart_ofChars _ _, by decide⟩
  expand closed ha := by
    obtain ⟨apart, same⟩ := apart_expandMarked (closing_tableRef closed.closed) (s := .plain)
      ⟨rfl, rfl⟩ ha.apart
    exact ⟨apart, same.trans ha.closed⟩

end Marked

end Reports.Sql
