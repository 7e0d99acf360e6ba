import Reports.Json.Basic

/-! Looking into values, with null for whatever is missing, and putting values together. Maps
whose order matters are lists of pairs. -/
namespace Reports.Json

def member (j : Json) (key : String) : Json :=
  match j with
  | object ms => (OrderedMap.lookup key ms).getD null
  | _ => null

def item (j : Json) (index : Nat) : Json :=
  match j with
  | array xs => (xs[index]?).getD null
  | _ => null

/-- Reads a value that may be null, which stands for `default`. -/
def orElse {α : Type} (default : α) (f : Json → Option α) : Json → Option α
  | null => some default
  | j => f j

def optional {α : Type} (f : Json → Option α) : Json → Option (Option α) :=
  orElse none fun j => (f j).map some

/-- Changes a value as `j` says, unless `j` is null. -/
def amend {α β : Type} (a : α) (f : Json → Option β) (g : α → β → α) :
    Json → Option α :=
  orElse a fun j => (f j).map (g a)

def bool? : Json → Option Bool
  | bool b => some b
  | _ => none

def int? : Json → Option Int
  | number (.int n) => some n
  | _ => none

def nat? (j : Json) : Option Nat := j.int?.bind fun n => if 0 ≤ n then some n.toNat else none

def uint32? (j : Json) : Option UInt32 := j.nat?.map UInt32.ofNat

def uint64? (j : Json) : Option UInt64 := j.nat?.map UInt64.ofNat

def items? : Json → Option (List Json) := orElse [] fun
  | array xs => some xs
  | _ => none

def named {α : Type} (ofName? : String → Option α) (j : Json) : Option α :=
  j.asString?.bind ofName?

def each {α : Type} (f : Json → Option α) (j : Json) : Option (List α) :=
  do (← j.items?).mapM f

def pair? {α : Type} (f : Json → Option α) : Json → Option (String × α)
  | array [string k, v] => (f v).map fun v => (k, v)
  | _ => none

def params? (j : Json) : Option Params := (each (pair? some) j).map OrderedMap.ofList

def str? (j : Json) (key : String) : Option String := (j.member key).asString?

def strD (j : Json) (key default : String) : Option String :=
  orElse default asString? (j.member key)

def boolD (j : Json) (key : String) (default : Bool) : Option Bool :=
  orElse default bool? (j.member key)

def intD (j : Json) (key : String) (default : Int) : Option Int :=
  orElse default int? (j.member key)

def listOf {α : Type} (j : Json) (key : String) (f : Json → Option α) : Option (List α) :=
  each f (j.member key)

def strOption (j : Json) (key : String) : Option (Option String) :=
  optional asString? (j.member key)

def list {α : Type} (f : α → Json) (xs : List α) : Json := array (xs.map f)

def texts (xs : List String) : Json := list string xs

def ofOption {α : Type} (f : α → Json) (x : Option α) : Json := (x.map f).getD null

def ofParams (m : Params) : Json := list (fun e => array [string e.1, e.2]) m.entries

instance : Coe String Json := ⟨string⟩
instance : Coe Bool Json := ⟨bool⟩
instance : Coe Nat Json := ⟨ofNat⟩
instance : Coe UInt32 Json := ⟨fun n => ofNat n.toNat⟩
instance : Coe UInt64 Json := ⟨fun n => ofNat n.toNat⟩

end Reports.Json
