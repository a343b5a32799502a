import CloudInventory.Json.Basic

/-!
JSON as a text says it, before anyone asks for a value: the members of an object stand in the
order of the text, and a name may come twice. A reader that skips a member never looks at its
value, so a value nobody can read (half of a surrogate pair, a number beyond the range, too many
lists and objects inside one another) is no fault of the text; it is a `Term.unreadable`, which
every reader refuses. `Term.value?` turns a term into a value, and `Json.term` goes back;
`value?_term` says that nothing is lost.
-/

namespace CloudInventory

/-- A JSON value as its text says it. -/
inductive Term where
  | null
  | bool (b : Bool)
  | num (n : Number)
  | str (s : String)
  | arr (items : List Term)
  | obj (members : List (String × Term))
  | unreadable
  deriving Repr

namespace Term

instance : Inhabited Term := ⟨null⟩

mutual

/-- The value of a term. In an object the last of several members with one name wins. -/
def value? : Term → Option Json
  | null => some .null
  | bool b => some (.bool b)
  | num n => some (.num n)
  | str s => some (.str s)
  | arr items => (values? items).map .arr
  | obj members => (memberValues? members).map Json.object
  | unreadable => none

/-- The values of a list of terms. -/
def values? : List Term → Option (List Json)
  | [] => some []
  | t :: ts =>
    match value? t, values? ts with
    | some j, some js => some (j :: js)
    | _, _ => none

/-- The members of an object with their values. -/
def memberValues? : List (String × Term) → Option (List (String × Json))
  | [] => some []
  | (k, t) :: ts =>
    match value? t, memberValues? ts with
    | some j, some js => some ((k, j) :: js)
    | _, _ => none

end

end Term

namespace Json

mutual

/-- The term that says a value. -/
def term : Json → Term
  | null => .null
  | bool b => .bool b
  | num n => .num n
  | str s => .str s
  | arr items => .arr (termItems items)
  | obj members => .obj (termMembers members)

/-- The terms of a list of values. -/
def termItems : List Json → List Term
  | [] => []
  | j :: js => term j :: termItems js

/-- The terms of an object's members. -/
def termMembers : List (String × Json) → List (String × Term)
  | [] => []
  | (k, j) :: js => (k, term j) :: termMembers js

end

mutual

/-- Member names ascend at every level. -/
def Canonical : Json → Prop
  | arr items => CanonicalItems items
  | obj members => Entries.Ascending members ∧ CanonicalMembers members
  | _ => True

/-- Every item is canonical. -/
def CanonicalItems : List Json → Prop
  | [] => True
  | j :: js => Canonical j ∧ CanonicalItems js

/-- The value of every member is canonical. -/
def CanonicalMembers : List (String × Json) → Prop
  | [] => True
  | (_, j) :: js => Canonical j ∧ CanonicalMembers js

end

mutual

/-- Reading the term of a canonical value gives the value back. -/
theorem value?_term : ∀ {j : Json}, j.Canonical → j.term.value? = some j
  | null, _ => by simp [term, Term.value?]
  | bool _, _ => by simp [term, Term.value?]
  | num _, _ => by simp [term, Term.value?]
  | str _, _ => by simp [term, Term.value?]
  | arr items, hc => by
    simp [term, Term.value?, values?_termItems (by simpa [Canonical] using hc)]
  | obj members, hc => by
    obtain ⟨ha, hm⟩ : Entries.Ascending members ∧ CanonicalMembers members := by
      simpa [Canonical] using hc
    simp [term, Term.value?, memberValues?_termMembers hm, object, Dict.toList_ofList ha]

theorem values?_termItems : ∀ {js : List Json}, CanonicalItems js →
    Term.values? (termItems js) = some js
  | [], _ => by simp [termItems, Term.values?]
  | j :: js, hc => by
    obtain ⟨h1, h2⟩ : Canonical j ∧ CanonicalItems js := by simpa [CanonicalItems] using hc
    simp [termItems, Term.values?, value?_term h1, values?_termItems h2]

theorem memberValues?_termMembers : ∀ {ms : List (String × Json)}, CanonicalMembers ms →
    Term.memberValues? (termMembers ms) = some ms
  | [], _ => by simp [termMembers, Term.memberValues?]
  | (k, j) :: ms, hc => by
    obtain ⟨h1, h2⟩ : Canonical j ∧ CanonicalMembers ms := by simpa [CanonicalMembers] using hc
    simp [termMembers, Term.memberValues?, value?_term h1, memberValues?_termMembers h2]

end

end Json

end CloudInventory
