import CloudInventory.Json.Decoder
import CloudInventory.Text.Split
import CloudInventory.Vocabulary

/-!
Entity address names: the name `kind:id` by which assets refer to each other. Reading cuts at the
first colon, since no kind has one in its text, so an id may hold colons. An id that is empty can
be built and written, but never read.
-/

namespace CloudInventory

/-- The name of an asset: its kind, and the id that its provider gave it. -/
structure Ean where
  kind : AssetKind
  id : String
  deriving DecidableEq, Repr

namespace Ean

/-- What is wrong with a text that is no name. -/
inductive Fault where
  | missingSeparator
  | unknownKind (text : String)
  | emptyId
  deriving DecidableEq, Repr

/-- The wording of a fault. -/
def Fault.message : Fault → String
  | missingSeparator => "EAN is missing the ':' separator"
  | unknownKind text => "Unknown asset kind: " ++ text
  | emptyId => "EAN id cannot be empty"

/-- The text of a name. -/
def text (e : Ean) : String := e.kind.text ++ ":" ++ e.id

/-- The name that a text says. -/
def read (s : String) : Except Fault Ean :=
  match Text.cut ':' s with
  | none => .error .missingSeparator
  | some (kind, id) =>
    match AssetKind.ofText? kind with
    | none => .error (.unknownKind kind)
    | some kind => if id = "" then .error .emptyId else .ok ⟨kind, id⟩

/-- The name that a term says: a text that reads as one. -/
def decode? (t : Term) : Option Ean := t.text?.bind fun s => (read s).toOption

/-- The order of names: by kind, then by id. -/
def le (a b : Ean) : Bool :=
  a.kind.rank < b.kind.rank || (a.kind.rank = b.kind.rank && decide (a.id ≤ b.id))

/-- Names in ascending order. -/
def sort (eans : List Ean) : List Ean := eans.mergeSort le

end Ean

end CloudInventory
