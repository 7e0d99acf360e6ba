import Reports.Proofs.OrderedMap
import Reports.Proofs.Sql.PlaceholderName
import Mathlib.Data.List.Basic

/-! Outlines of statements: texts with holes where placeholders are drawn. A hole knows which of
the drawn names it is for, not the number in that name; filling an outline chooses the numbers. -/
namespace Reports.Sql

/-- A name in a statement: drawn from the counter, known by its rank, or written by hand. -/
inductive Name
  | drawn (i : Nat)
  | written (name : String)
  deriving DecidableEq

namespace Name

def text (number : Nat → Nat) : Name → String
  | drawn i => placeholderName (number i)
  | written s => s

def rank? : Name → Option Nat
  | drawn i => some i
  | written _ => none

@[simp] theorem text_drawn (number : Nat → Nat) (i : Nat) :
    (drawn i).text number = placeholderName (number i) := rfl

@[simp] theorem text_written (number : Nat → Nat) (s : String) : (written s).text number = s :=
  rfl

/-- The name is no placeholder name by accident. -/
def Clear (number : Nat → Nat) : Name → Prop
  | drawn _ => True
  | written s => ∀ i, s ≠ placeholderName (number i)

theorem text_injective {number : Nat → Nat} (distinct : Function.Injective number) {a b : Name}
    (ha : a.Clear number) (hb : b.Clear number) (h : a.text number = b.text number) : a = b := by
  cases a with
  | drawn i =>
    cases b with
    | drawn j => exact congrArg drawn (distinct (placeholderName_injective h))
    | written s => exact absurd h.symm (hb i)
  | written r =>
    cases b with
    | drawn j => exact absurd h (ha j)
    | written s => exact congrArg written h

end Name

inductive Mark
  | char (c : Char)
  | hole (i : Nat)
  deriving DecidableEq

abbrev Marked := List Mark

namespace Marked

variable (number : Nat → Nat)

def ofChars (cs : List Char) : Marked := cs.map .char

def ofText (s : String) : Marked := ofChars s.toList

def holes : Marked → List Nat
  | [] => []
  | .char _ :: rest => holes rest
  | .hole i :: rest => i :: holes rest

def fill : Marked → List Char
  | [] => []
  | .char c :: rest => c :: fill rest
  | .hole i :: rest => ':' :: (placeholderName (number i)).toList ++ fill rest

def spell (f : Name → String) : Marked → List Char
  | [] => []
  | .char c :: rest => c :: spell f rest
  | .hole i :: rest => ':' :: (f (.drawn i)).toList ++ spell f rest

def join (sep : String) : List Marked → Marked
  | [] => []
  | [a] => a
  | a :: b :: rest => a ++ ofText sep ++ join sep (b :: rest)

@[simp] theorem ofChars_nil : ofChars [] = [] := rfl

@[simp] theorem ofChars_cons (c : Char) (cs : List Char) :
    ofChars (c :: cs) = .char c :: ofChars cs := rfl

@[simp] theorem ofChars_append (as bs : List Char) :
    ofChars (as ++ bs) = ofChars as ++ ofChars bs := List.map_append

@[simp] theorem ofText_append (s t : String) : ofText (s ++ t) = ofText s ++ ofText t := by
  rw [ofText, String.toList_append, ofChars_append, ofText, ofText]

@[simp] theorem ofText_empty : ofText "" = [] := rfl

@[simp] theorem holes_append (a b : Marked) : (a ++ b).holes = a.holes ++ b.holes := by
  induction a with
  | nil => rfl
  | cons x rest ih => cases x <;> simp [holes, ih]

@[simp] theorem holes_ofChars (cs : List Char) : (ofChars cs).holes = [] := by
  induction cs with
  | nil => rfl
  | cons c rest ih => exact ih

@[simp] theorem holes_ofText (s : String) : (ofText s).holes = [] := holes_ofChars s.toList

theorem spell_text (a : Marked) : spell (Name.text number) a = fill number a := by
  induction a with
  | nil => rfl
  | cons x rest ih => cases x <;> simp [spell, fill, ih]

@[simp] theorem fill_nil : fill number [] = [] := rfl

@[simp] theorem fill_append (a b : Marked) :
    fill number (a ++ b) = fill number a ++ fill number b := by
  induction a with
  | nil => rfl
  | cons x rest ih => cases x <;> simp [fill, ih]

@[simp] theorem fill_ofChars (cs : List Char) : fill number (ofChars cs) = cs := by
  induction cs with
  | nil => rfl
  | cons c rest ih => simp [fill, ih]

@[simp] theorem fill_ofText (s : String) : fill number (ofText s) = s.toList :=
  fill_ofChars number s.toList

theorem fill_eq_nil_iff (a : Marked) : fill number a = [] ↔ a = [] := by
  cases a with
  | nil => simp
  | cons x rest => cases x <;> simp [fill]

theorem fill_eq_iff {cs : List Char} (plain : ':' ∉ cs) (a : Marked) :
    fill number a = cs ↔ a = ofChars cs := by
  refine ⟨fun same => ?_, fun same => by rw [same, fill_ofChars]⟩
  induction a generalizing cs with
  | nil => rw [← same]; rfl
  | cons x rest ih =>
    subst same
    cases x with
    | hole i => exact absurd List.mem_cons_self plain
    | char c =>
      have later := ih (fun h => plain (List.mem_cons_of_mem _ h)) rfl
      rw [fill, ofChars_cons, ← later]

theorem fill_join (sep : String) (as : List Marked) :
    fill number (join sep as) =
      (Text.join sep (as.map fun a => String.ofList (fill number a))).toList := by
  induction as with
  | nil => rfl
  | cons a rest ih =>
    cases rest with
    | nil => simp [join, Text.join]
    | cons b rest =>
      simp only [join, fill_append, fill_ofText, ih, List.map_cons, Text.join, String.toList_append,
        String.toList_ofList]

theorem ofText_join (sep : String) (ss : List String) :
    ofText (Text.join sep ss) = join sep (ss.map ofText) := by
  induction ss with
  | nil => rfl
  | cons s rest ih =>
    cases rest with
    | nil => rfl
    | cons t rest =>
      rw [Text.join, ofText_append, ofText_append, ih]
      rfl

end Marked

/-- A statement whose drawn names have no numbers yet. -/
structure Outline where
  text : Marked
  params : OrderedMap Name Json := ∅

namespace Outline

def ofStatement (s : Statement) : Outline := ⟨.ofText s.sql, s.params.mapKeys .written⟩

def fill (number : Nat → Nat) (o : Outline) : Statement :=
  ⟨String.ofList (o.text.fill number), o.params.mapKeys (Name.text number)⟩

@[simp] theorem fill_ofStatement (number : Nat → Nat) (s : Statement) :
    (ofStatement s).fill number = s := by
  obtain ⟨sql, params⟩ := s
  simp only [fill, ofStatement, Marked.fill_ofText, String.ofList_toList, Statement.mk.injEq,
    true_and]
  exact OrderedMap.mapKeys_mapKeys_id _ _ _ fun _ => rfl

end Outline

end Reports.Sql
