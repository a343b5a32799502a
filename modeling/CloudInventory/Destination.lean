import CloudInventory.Vocabulary

/-!
Destinations: the text that routes a record, made of the type of its asset and the namespace of
the installation.
-/

namespace CloudInventory

/-- The namespace that an absent or empty one stands for. -/
def effectiveNamespace (space : Option String) : String :=
  match space with
  | none => "default"
  | some s => if s = "" then "default" else s

/-- Where records of a type go. -/
def destinationFor (type : AssetType) (space : Option String) : String :=
  "assets-" ++ type.text ++ "-" ++ effectiveNamespace space

end CloudInventory
