import CloudInventory.Toml.Scalar

/-!
TOML values. Arrays may run over many lines and end in a comma; inline tables may not. In an
inline table a key of several parts makes tables on its way, which later keys of the same table
may extend but nothing else may.
-/

namespace CloudInventory.Toml

/-- An entry of an inline table: a value, or a table that a key of several parts made. -/
inductive Inline where
  | leaf (t : Term)
  | table (entries : List (String × Inline))

namespace Inline

/-- The entry with a key. -/
def entry? (key : String) : List (String × Inline) → Option Inline
  | [] => none
  | (k, v) :: rest => if k = key then some v else entry? key rest

/-- The entries with one of them replaced. -/
def replace (key : String) (v : Inline) : List (String × Inline) → List (String × Inline)
  | [] => []
  | (k, w) :: rest => if k = key then (k, v) :: rest else (k, w) :: replace key v rest

/-- Add a value under a key. Only a table that a key made can be extended. -/
def insert? (v : Inline) :
    List String → List (String × Inline) → Option (List (String × Inline))
  | [], _ => none
  | [key], entries =>
    match entry? key entries with
    | none => some (entries ++ [(key, v)])
    | some _ => none
  | key :: path, entries =>
    match entry? key entries with
    | none => (insert? v path []).map fun inner => entries ++ [(key, table inner)]
    | some (table inner) =>
      (insert? v path inner).map fun inner => replace key (table inner) entries
    | some _ => none

mutual

/-- The term of a value. -/
def term : Inline → Term
  | leaf t => t
  | table entries => .obj (terms entries)

/-- The members of a table. -/
def terms : List (String × Inline) → List (String × Term)
  | [] => []
  | (k, v) :: rest => (k, term v) :: terms rest

end

end Inline

/-- The rest behind blanks, comments and line ends. -/
def skipLines : Nat → List Char → List Char
  | 0, cs => cs
  | fuel + 1, cs =>
    match skipBlanks cs with
    | '#' :: rest =>
      match newline? (rest.dropWhile isPlain) with
      | some rest => skipLines fuel rest
      | none => '#' :: rest
    | cs =>
      match newline? cs with
      | some rest => skipLines fuel rest
      | none => cs

/-- The rest behind all blanks, comments and line ends. -/
def skipSpace (cs : List Char) : List Char := skipLines (cs.length + 1) cs

mutual

/-- A value, with at most `depth` arrays and inline tables inside one another. -/
def valueWithin? (fuel depth : Nat) (cs : List Char) : Option (Term × List Char) :=
  match fuel with
  | 0 => none
  | fuel + 1 =>
    match cs with
    | '"' :: _ | '\'' :: _ =>
      (string? cs).map fun p => (.str (String.ofList p.1), p.2)
    | '[' :: rest =>
      match depth with
      | 0 => none
      | depth + 1 => (itemsWithin? fuel depth false rest).map fun p => (.arr p.1, p.2)
    | '\x7b' :: rest =>
      match depth with
      | 0 => none
      | depth + 1 =>
        match skipBlanks rest with
        | '\x7d' :: rest => some (.obj [], rest)
        | rest => (pairsWithin? fuel depth [] rest).map fun p => (.obj (Inline.terms p.1), p.2)
    | 't' :: 'r' :: 'u' :: 'e' :: rest => some (.bool true, rest)
    | 'f' :: 'a' :: 'l' :: 's' :: 'e' :: rest => some (.bool false, rest)
    | cs => numeral? cs

/-- The items of an array up to its closing bracket; `comma` asks for a comma first. -/
def itemsWithin? (fuel depth : Nat) (comma : Bool) (cs : List Char) :
    Option (List Term × List Char) :=
  match fuel with
  | 0 => none
  | fuel + 1 =>
    match skipSpace cs with
    | ']' :: rest => some ([], rest)
    | cs =>
      match (if comma then after? ',' cs else some cs) with
      | none => none
      | some cs =>
        match skipSpace cs with
        | ']' :: rest => if comma then some ([], rest) else none
        | cs =>
          match valueWithin? fuel depth cs with
          | none => none
          | some (t, rest) =>
            (itemsWithin? fuel depth true rest).map fun p => (t :: p.1, p.2)

/-- The pairs of an inline table up to its closing brace, added to the ones before them. -/
def pairsWithin? (fuel depth : Nat) (entries : List (String × Inline)) (cs : List Char) :
    Option (List (String × Inline) × List Char) :=
  match fuel with
  | 0 => none
  | fuel + 1 =>
    match key? cs with
    | none => none
    | some (path, rest) =>
      match (after? '=' rest).bind fun rest => valueWithin? fuel depth (skipBlanks rest) with
      | none => none
      | some (t, rest) =>
        match Inline.insert? (.leaf t) path entries with
        | none => none
        | some entries =>
          match skipBlanks rest with
          | '\x7d' :: rest => some (entries, rest)
          | ',' :: rest => pairsWithin? fuel depth entries rest
          | _ => none

end

/-- A value. -/
def value? (cs : List Char) : Option (Term × List Char) :=
  valueWithin? (2 * cs.length + 2) (depthBound - 1) cs

end CloudInventory.Toml
