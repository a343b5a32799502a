import CloudInventory.Json.Term

/-!
Reading structured values from terms. A structure is written as an object of its fields, or as a
list of them in the order of their declaration. Members that are not declared are passed over,
whatever they hold; a declared one that comes twice is an error. A field may be left out when it
has a default; an optional one also in an object, where null too says that it is absent. No value
is converted: text is not a number, and `1.0` is not an integer.
-/

namespace CloudInventory

/-- The declared fields of a structure, as a term says them. -/
structure Fields where
  /-- The fields stand in a list, so that only trailing ones can be left out. -/
  positional : Bool
  slot : String → Option Term

namespace Term

/-- How often a member is given. -/
def occurrences (name : String) (members : List (String × Term)) : Nat :=
  (members.filter fun m => m.1 = name).length

/-- The fields that an object gives for the declared `names`. -/
def members? (names : List String) : Term → Option Fields
  | obj members =>
    if names.any fun name => 1 < occurrences name members then none
    else some ⟨false, fun name => Entries.get? name members⟩
  | _ => none

/-- The fields that an object or a list gives for the declared `names`. With `surplus`, items of
the list beyond the last field are passed over. -/
def fieldsWith? (surplus : Bool) (names : List String) : Term → Option Fields
  | arr items =>
    if names.length < items.length ∧ ¬ surplus then none
    else some ⟨true, fun name => items[names.idxOf name]?⟩
  | t => members? names t

/-- The fields that an object or a list gives for the declared `names`. -/
def fields? (names : List String) (t : Term) : Option Fields := fieldsWith? false names t

/-- Text. -/
def text? : Term → Option String
  | str s => some s
  | _ => none

/-- A truth value. -/
def flag? : Term → Option Bool
  | bool b => some b
  | _ => none

/-- An integer from 0 to below `bound`. -/
def natBelow? (bound : Nat) : Term → Option Nat
  | num (.int (.ofNat n)) => if n < bound then some n else none
  | _ => none

/-- An unsigned integer of 64 bits. -/
def word? (t : Term) : Option Nat := natBelow? (Nat.pow 2 64) t

/-- A list whose items `item?` reads. -/
def list? {α : Type} (item? : Term → Option α) : Term → Option (List α)
  | arr items => items.mapM item?
  | _ => none

/-- A list of texts. -/
def texts? (t : Term) : Option (List String) := list? text? t

/-- An object read as a dictionary; the last of several members with one name wins. -/
def dict? {α : Type} (value? : Term → Option α) : Term → Option (Dict α)
  | obj members =>
    (members.mapM fun m => (value? m.2).map fun v => (m.1, v)).map Dict.ofList
  | _ => none

/-- A dictionary of texts. -/
def textDict? (t : Term) : Option (Dict String) := dict? text? t

/-- Absent when null. -/
def nullable? {α : Type} (value? : Term → Option α) : Term → Option (Option α)
  | null => some none
  | t => (value? t).map some

end Term

namespace Fields

variable {α : Type}

/-- A field that has to be given. -/
def required (f : Fields) (name : String) (value? : Term → Option α) : Option α :=
  (f.slot name).bind value?

/-- A field that is absent when null or left out of an object. -/
def optional (f : Fields) (name : String) (value? : Term → Option α) : Option (Option α) :=
  match f.slot name with
  | none => if f.positional then none else some none
  | some t => t.nullable? value?

/-- A field with a default. -/
def defaulted (f : Fields) (name : String) (default : α) (value? : Term → Option α) : Option α :=
  match f.slot name with
  | none => some default
  | some t => value? t

end Fields

end CloudInventory
