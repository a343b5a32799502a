import CloudInventory.Toml.Value

/-!
TOML documents: tables opened by headers, with the key-value lines below them. A table may be
made on the way, by a header below it or by a key of several parts. One that a header below made
can still be opened by its own header, once; one that a key made can only be extended by further
keys of the same table.
-/

namespace CloudInventory.Toml

/-- How a table came to be. -/
inductive Origin where
  | header
  | headerBelow
  | key
  deriving DecidableEq

/-- A node of a document: a value, a table, or an array of tables, of which the last one is the
one that paths lead into. -/
inductive Node where
  | value (t : Term)
  | table (origin : Origin) (entries : List (String × Node))
  | tables (items : List (List (String × Node)))

namespace Node

/-- The node under a key. -/
def entry? (key : String) : List (String × Node) → Option Node
  | [] => none
  | (k, n) :: rest => if k = key then some n else entry? key rest

/-- Set the node under a key. -/
def set (key : String) (n : Node) : List (String × Node) → List (String × Node)
  | [] => [(key, n)]
  | (k, m) :: rest => if k = key then (k, n) :: rest else (k, m) :: set key n rest

/-- Change the last of a list. -/
def changeLast? {α : Type} (f : α → Option α) : List α → Option (List α)
  | [] => none
  | [a] => (f a).map fun a => [a]
  | a :: as => (changeLast? f as).map (a :: ·)

/-- Follow a path from the table with the given entries and change the table that it leads to.
Missing tables on the way are made by `origin`; a key can pass only tables that were made on the
way. -/
def changeAt? (origin : Origin) (f : Origin → List (String × Node) → Option (List (String × Node)))
    (here : Origin) : List String → List (String × Node) → Option (List (String × Node))
  | [], entries => f here entries
  | key :: path, entries =>
    match entry? key entries with
    | none =>
      (changeAt? origin f origin path []).map fun inner => set key (table origin inner) entries
    | some (table o inner) =>
      if origin = .key ∧ o = .header then none
      else
        (changeAt? origin f o path inner).map fun inner => set key (table o inner) entries
    | some (tables items) =>
      (changeLast? (changeAt? origin f .header path) items).map fun items =>
        set key (tables items) entries
    | some (value _) => none

/-- Open the table `key` with its own header. -/
def openTable? (key : String) (entries : List (String × Node)) : Option (List (String × Node)) :=
  match entry? key entries with
  | none => some (set key (table .header []) entries)
  | some (table .headerBelow inner) => some (set key (table .header inner) entries)
  | some _ => none

/-- Add a table to the array `key`. -/
def appendTable? (key : String) (entries : List (String × Node)) :
    Option (List (String × Node)) :=
  match entry? key entries with
  | none => some (set key (tables [[]]) entries)
  | some (tables items) => some (set key (tables (items ++ [[]])) entries)
  | some _ => none

/-- Add a value to a table, by the last part of a key. A table that the earlier parts lead to was
made by keys; one without earlier parts was not. -/
def addValue? (single : Bool) (key : String) (t : Term) (here : Origin)
    (entries : List (String × Node)) : Option (List (String × Node)) :=
  if decide (here = .key) = single then none
  else
    match entry? key entries with
    | none => some (set key (value t) entries)
    | some _ => none

mutual

/-- The term of a node. -/
def term : Node → Term
  | value t => t
  | table _ entries => .obj (members entries)
  | tables items => .arr (lists items)

/-- The members of a table. -/
def members : List (String × Node) → List (String × Term)
  | [] => []
  | (k, n) :: rest => (k, term n) :: members rest

/-- The tables of an array. -/
def lists : List (List (String × Node)) → List Term
  | [] => []
  | entries :: rest => .obj (members entries) :: lists rest

end

end Node

/-- A document that is being read: its root table, and the path of the table that is open. -/
structure Draft where
  root : List (String × Node)
  here : List String

/-- Take a key and a value. -/
def Draft.assign? (d : Draft) (path : List String) (t : Term) : Option Draft :=
  match path.getLast? with
  | none => none
  | some key =>
    let add := Node.addValue? (path.length = 1) key t
    let follow (here : Origin) (entries : List (String × Node)) :=
      Node.changeAt? .key add here path.dropLast entries
    (Node.changeAt? .headerBelow follow .header d.here d.root).map fun root => { d with root }

/-- Take a header. -/
def Draft.header? (d : Draft) (array : Bool) (path : List String) : Option Draft :=
  match path.getLast? with
  | none => none
  | some key =>
    let start (_ : Origin) (entries : List (String × Node)) :=
      if array then Node.appendTable? key entries else Node.openTable? key entries
    (Node.changeAt? .headerBelow start .header path.dropLast d.root).map fun root => ⟨root, path⟩

/-- Take a line that is not blank, up to its end. -/
def Draft.line? (d : Draft) (cs : List Char) : Option (Draft × List Char) :=
  match cs with
  | '[' :: '[' :: rest => do
    let (path, rest) ← key? rest
    let rest ← endOfLine? (← after? ']' (← after? ']' rest))
    return (← d.header? true path, rest)
  | '[' :: rest => do
    let (path, rest) ← key? rest
    let rest ← endOfLine? (← after? ']' rest)
    return (← d.header? false path, rest)
  | cs => do
    let (path, rest) ← key? cs
    let (t, rest) ← value? (skipBlanks (← after? '=' rest))
    let rest ← endOfLine? rest
    return (← d.assign? path t, rest)

/-- Take the lines of a text. -/
def Draft.lines? : Nat → Draft → List Char → Option Draft
  | 0, _, _ => none
  | fuel + 1, d, cs =>
    match skipBlanks cs with
    | [] => some d
    | '#' :: rest => (endOfLine? ('#' :: rest)).bind (lines? fuel d)
    | cs =>
      match newline? cs with
      | some rest => lines? fuel d rest
      | none => (d.line? cs).bind fun p => lines? fuel p.1 p.2

/-- The table that a text says; a byte order mark in front is passed over. -/
def read? (text : String) : Option Term :=
  let cs :=
    match text.toList with
    | '\uFEFF' :: rest => rest
    | cs => cs
  (Draft.lines? (cs.length + 1) ⟨[], []⟩ cs).map fun d => .obj (Node.members d.root)

end CloudInventory.Toml
