import CloudInventory.Dict
import CloudInventory.Text.Split

/-!
Trees of files. A path gives names with slashes between them, and is walked from the root: an
empty name and a dot stay, two dots go back, and any other name goes on to the directory of that
name, which has to be there even if the path leaves it again. The last name is that of the file. A
path that begins with a slash or leaves the root leads out of the tree, and so to no file of it.
-/

namespace CloudInventory

/-- Files in directories below a root. -/
structure FileTree where
  /-- The texts of the files, by the names on the way to each with slashes between them. -/
  files : Dict String
  /-- The directories other than the root, each as the names on the way to it. -/
  directories : List (List String)
  deriving DecidableEq

namespace FileTree

/-- Nothing but the root. -/
def empty : FileTree := ⟨.empty, []⟩

instance : Inhabited FileTree := ⟨empty⟩

/-- There is a directory at a place. -/
def hasDirectory (t : FileTree) (place : List String) : Bool :=
  place.isEmpty || t.directories.contains place

/-- The text that stands for a place among the files. -/
def placeText (place : List String) : String := Text.joined "/" place

/-- There is a file at a place. -/
def hasFile (t : FileTree) (place : List String) : Bool :=
  (t.files.get? (placeText place)).isSome

/-- The place that a name leads to from a directory; there is no way back from the root. -/
def next? (place : List String) (name : String) : Option (List String) :=
  if name = "" ∨ name = "." then some place
  else if name = ".." then (if place = [] then none else some place.dropLast)
  else some (place ++ [name])

/-- The directory that names lead to. -/
def walk? (t : FileTree) (place : List String) : List String → Option (List String)
  | [] => some place
  | name :: names =>
    match next? place name with
    | some place => if t.hasDirectory place then t.walk? place names else none
    | none => none

/-- The directory that names lead to, with the tree in which none of them is lacking; none when a
file is in the way. -/
def build? (t : FileTree) (place : List String) : List String → Option (List String × FileTree)
  | [] => some (place, t)
  | name :: names =>
    match next? place name with
    | some place =>
      if t.hasDirectory place then t.build? place names
      else if t.hasFile place then none
      else build? { t with directories := t.directories ++ [place] } place names
    | none => none

/-- The names of the directories that a path goes through, and the name of its file. -/
def names? (path : String) : Option (List String × String) :=
  let names := Text.fields '/' path
  match names.getLast? with
  | some file =>
    if path.toList.head? = some '/' ∨ file = "" ∨ file = "." ∨ file = ".." then none
    else some (names.dropLast, file)
  | none => none

/-- The place of the file that a path leads to. -/
def place? (t : FileTree) (path : String) : Option (List String) :=
  match names? path with
  | some (names, file) => (t.walk? [] names).map fun place => place ++ [file]
  | none => none

/-- The text of the file that a path leads to. -/
def text? (t : FileTree) (path : String) : Option String :=
  (t.place? path).bind fun place => t.files.get? (placeText place)

/-- The tree with a file at the end of a path, and the directories on the way to it; the same tree
when a file or a directory is in the way. -/
def insert (t : FileTree) (path text : String) : FileTree :=
  match names? path with
  | some (names, file) =>
    match t.build? [] names with
    | some (place, built) =>
      if built.hasDirectory (place ++ [file]) then t
      else { built with files := built.files.insert (placeText (place ++ [file])) text }
    | none => t
  | none => t

/-- The tree without the file that a path leads to; its directory stays. -/
def erase (t : FileTree) (path : String) : FileTree :=
  match t.place? path with
  | some place => { t with files := t.files.erase (placeText place) }
  | none => t

end FileTree

end CloudInventory
