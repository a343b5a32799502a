import CloudInventory.Json.Basic

/-!
Flat forms of nested objects: one entry for each leaf, whose key is the path to it with dots
between the names. A leaf is a value that is no object. Members are visited in the order of their
names, depth first, and of two leaves with one path the later one stays.
-/

namespace CloudInventory

namespace Json

/-- The path of `key` below `path`; the empty path is no part of it. -/
def pathTo (path key : String) : String := if path = "" then key else path ++ "." ++ key

mutual

/-- Add the leaves of a value under `path` to `flat`. -/
def flattenInto (path : String) (j : Json) (flat : Dict Json) : Dict Json :=
  match j with
  | obj members => flattenMembers path members flat
  | leaf => flat.insert path leaf

/-- Add the leaves of an object's members under `path` to `flat`. -/
def flattenMembers (path : String) (members : List (String × Json)) (flat : Dict Json) :
    Dict Json :=
  match members with
  | [] => flat
  | (key, j) :: rest => flattenMembers path rest (flattenInto (pathTo path key) j flat)

end

/-- The flat form of an object with the given members. -/
def flatten (members : Dict Json) : Dict Json :=
  members.toList.foldl (fun flat m => flattenInto m.1 m.2 flat) .empty

/-- The flat form of a dictionary of texts under a namespace. -/
def namespaced (space : String) (pairs : Dict String) : Dict Json :=
  .ofList (pairs.toList.map fun p => (pathTo space p.1, str p.2))

end Json

end CloudInventory
