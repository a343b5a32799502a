import CloudInventory.Dict
import CloudInventory.Json.Binary64

/-!
JSON values. An object is a list of members; in a canonical value the member names ascend
strictly at every level, which makes equality of canonical values equality of what they say.
`Json.object` sorts the members it is given.
-/

namespace CloudInventory

/-- A JSON number: an integer of at most 64 bits, signed or not, or a binary64 number. -/
inductive Number where
  | int (n : Int)
  | real (x : Binary64)
  deriving DecidableEq, Repr

/-- A JSON value. -/
inductive Json where
  | null
  | bool (b : Bool)
  | num (n : Number)
  | str (s : String)
  | arr (items : List Json)
  | obj (members : List (String × Json))
  deriving Repr

namespace Json

instance : Inhabited Json := ⟨null⟩

/-! ### Equality -/

mutual

/-- Two values are the same. -/
def same : Json → Json → Bool
  | null, null => true
  | bool a, bool b => a == b
  | num a, num b => decide (a = b)
  | str a, str b => decide (a = b)
  | arr a, arr b => sameItems a b
  | obj a, obj b => sameMembers a b
  | _, _ => false

/-- Two lists of items are the same. -/
def sameItems : List Json → List Json → Bool
  | [], [] => true
  | a :: as, b :: bs => same a b && sameItems as bs
  | _, _ => false

/-- Two lists of members are the same, in the same order. -/
def sameMembers : List (String × Json) → List (String × Json) → Bool
  | [], [] => true
  | (k, a) :: as, (j, b) :: bs => decide (k = j) && same a b && sameMembers as bs
  | _, _ => false

end

mutual

theorem eq_of_same : ∀ {a b : Json}, same a b = true → a = b
  | null, b, h => by cases b <;> simp_all [same]
  | bool a, b, h => by cases b <;> simp_all [same]
  | num a, b, h => by cases b <;> simp_all [same]
  | str a, b, h => by cases b <;> simp_all [same]
  | arr a, b, h => by
    cases b with
    | arr b => simp only [same] at h; rw [eq_of_sameItems h]
    | _ => simp [same] at h
  | obj a, b, h => by
    cases b with
    | obj b => simp only [same] at h; rw [eq_of_sameMembers h]
    | _ => simp [same] at h

theorem eq_of_sameItems : ∀ {a b : List Json}, sameItems a b = true → a = b
  | [], b, h => by cases b <;> simp_all [sameItems]
  | a :: as, b, h => by
    cases b with
    | nil => simp [sameItems] at h
    | cons b bs =>
      simp only [sameItems, Bool.and_eq_true] at h
      rw [eq_of_same h.1, eq_of_sameItems h.2]

theorem eq_of_sameMembers : ∀ {a b : List (String × Json)}, sameMembers a b = true → a = b
  | [], b, h => by cases b <;> simp_all [sameMembers]
  | (k, a) :: as, b, h => by
    cases b with
    | nil => simp [sameMembers] at h
    | cons b bs =>
      obtain ⟨j, b⟩ := b
      simp only [sameMembers, Bool.and_eq_true, decide_eq_true_eq] at h
      rw [h.1.1, eq_of_same h.1.2, eq_of_sameMembers h.2]

end

mutual

theorem same_self : ∀ a : Json, same a a = true
  | null => rfl
  | bool a => by simp [same]
  | num a => by simp [same]
  | str a => by simp [same]
  | arr a => by simp only [same]; exact sameItems_self a
  | obj a => by simp only [same]; exact sameMembers_self a

theorem sameItems_self : ∀ a : List Json, sameItems a a = true
  | [] => rfl
  | a :: as => by simp [sameItems, same_self a, sameItems_self as]

theorem sameMembers_self : ∀ a : List (String × Json), sameMembers a a = true
  | [] => rfl
  | (k, a) :: as => by simp [sameMembers, same_self a, sameMembers_self as]

end

instance : DecidableEq Json := fun a b =>
  if h : same a b = true then isTrue (eq_of_same h)
  else isFalse fun he => h (he ▸ same_self a)

/-! ### Building values -/

/-- The object with the given members, sorted by name; the last of several with one name wins. -/
def object (members : List (String × Json)) : Json := obj (Dict.ofList members).toList

/-- The object of a dictionary. -/
def ofDict (d : Dict Json) : Json := obj d.toList

/-- Text, or null. -/
def ofOption (s : Option String) : Json :=
  match s with
  | some s => str s
  | none => null

/-- A natural number. -/
def nat (n : Nat) : Json := num (.int n)

/-- A list of texts. -/
def strs (ss : List String) : Json := arr (ss.map str)

/-- A dictionary of texts. -/
def ofStrDict (d : Dict String) : Json := obj (d.toList.map fun e => (e.1, str e.2))

/-! ### Reading values -/

/-- The member `key` of an object. -/
def get? (key : String) : Json → Option Json
  | obj members => Entries.get? key members
  | _ => none

/-- The value reached by following `path` from object to object. -/
def at? : List String → Json → Option Json
  | [], j => some j
  | key :: path, j =>
    match j.get? key with
    | some child => at? path child
    | none => none

/-- The text of a string. -/
def text? : Json → Option String
  | str s => some s
  | _ => none

end Json

end CloudInventory
