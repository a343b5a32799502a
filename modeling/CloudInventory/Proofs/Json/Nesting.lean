import CloudInventory.Proofs.Json.Paths

/-!
Values that a text can say in full. A text has lists and objects inside one another to a limited
depth only, and integers of at most 64 bits (`Term.Within`); and of its numbers only the integers
are said exactly (`Json.FloatFree`). A value with all of this `Fits`.
-/

namespace CloudInventory

/-- An integer of 64 bits, with a sign or without one. -/
def Number.Small : Number → Prop
  | int n => -(Nat.pow 2 63 : Nat) ≤ n ∧ n < (Nat.pow 2 64 : Nat)
  | real _ => True

theorem Dict.mem_of_mem_ofList {α : Type} {pairs : List (String × α)} {e : String × α}
    (h : e ∈ (ofList pairs).toList) : e ∈ pairs := by
  have hlast : lastOf e.1 pairs = some e.2 := by rw [← get?_ofList]; exact get?_eq_some_iff.2 h
  obtain ⟨e', he', hv⟩ := List.mem_filterMap.1 (List.mem_of_getLast? hlast)
  split at hv
  case isTrue hk => rwa [Prod.ext hk (Option.some.inj hv)] at he'
  case isFalse => cases hv

namespace Term

mutual

/-- At most `depth` lists and objects stand inside one another, and integers have 64 bits. -/
def Within : Nat → Term → Prop
  | _, num n => n.Small
  | depth + 1, arr items => ItemsWithin depth items
  | depth + 1, obj members => MembersWithin depth members
  | 0, arr _ | 0, obj _ => False
  | _, _ => True

/-- Every item is within a depth. -/
def ItemsWithin : Nat → List Term → Prop
  | _, [] => True
  | depth, t :: ts => Within depth t ∧ ItemsWithin depth ts

/-- The value of every member is within a depth. -/
def MembersWithin : Nat → List (String × Term) → Prop
  | _, [] => True
  | depth, (_, t) :: ts => Within depth t ∧ MembersWithin depth ts

end

@[simp] theorem within_arr {depth : Nat} {items : List Term} :
    (arr items).Within (depth + 1) ↔ ∀ t ∈ items, t.Within depth := by
  rw [Within]
  induction items with
  | nil => simp [ItemsWithin]
  | cons t ts ih => simp [ItemsWithin, ih]

@[simp] theorem within_obj {depth : Nat} {members : List (String × Term)} :
    (obj members).Within (depth + 1) ↔ ∀ m ∈ members, m.2.Within depth := by
  rw [Within]
  induction members with
  | nil => simp [MembersWithin]
  | cons m ms ih => simp [MembersWithin, ih]

end Term

namespace Json

mutual

/-- No number is other than an integer. -/
def FloatFree : Json → Prop
  | num (.real _) => False
  | arr items => FloatFreeItems items
  | obj members => FloatFreeMembers members
  | _ => True

/-- No item has a number other than an integer. -/
def FloatFreeItems : List Json → Prop
  | [] => True
  | j :: js => FloatFree j ∧ FloatFreeItems js

/-- The value of no member has a number other than an integer. -/
def FloatFreeMembers : List (String × Json) → Prop
  | [] => True
  | (_, j) :: js => FloatFree j ∧ FloatFreeMembers js

end

@[simp] theorem floatFree_arr {items : List Json} :
    (arr items).FloatFree ↔ ∀ j ∈ items, j.FloatFree := by
  rw [FloatFree]
  induction items with
  | nil => simp [FloatFreeItems]
  | cons j js ih => simp [FloatFreeItems, ih]

@[simp] theorem floatFree_obj {members : List (String × Json)} :
    (obj members).FloatFree ↔ ∀ m ∈ members, m.2.FloatFree := by
  rw [FloatFree]
  induction members with
  | nil => simp [FloatFreeMembers]
  | cons m ms ih => simp [FloatFreeMembers, ih]

theorem canonical_arr {items : List Json} :
    (arr items).Canonical ↔ ∀ j ∈ items, j.Canonical := by
  rw [Canonical]
  induction items with
  | nil => simp [CanonicalItems]
  | cons j items ih => simp [CanonicalItems, ih]

theorem termItems_eq_map (items : List Json) : termItems items = items.map term := by
  induction items with
  | nil => rfl
  | cons j items ih => rw [termItems, ih, List.map_cons]

theorem termMembers_eq_map (members : List (String × Json)) :
    termMembers members = members.map fun m => (m.1, m.2.term) := by
  induction members with
  | nil => rfl
  | cons m members ih => rw [termMembers, ih, List.map_cons]

/-- A text can say the value: it is no deeper than `depth`, and its numbers are integers of 64
bits. -/
def Fits (depth : Nat) (j : Json) : Prop := j.term.Within depth ∧ j.FloatFree

section

variable {depth : Nat}

@[simp] theorem fits_null : null.Fits depth := by simp [Fits, term, Term.Within, FloatFree]

@[simp] theorem fits_bool (b : Bool) : (bool b).Fits depth := by
  simp [Fits, term, Term.Within, FloatFree]

@[simp] theorem fits_str (s : String) : (str s).Fits depth := by
  simp [Fits, term, Term.Within, FloatFree]

@[simp] theorem fits_ofOption (s : Option String) : (ofOption s).Fits depth := by
  cases s <;> simp [ofOption]

@[simp] theorem fits_arr {items : List Json} :
    (arr items).Fits (depth + 1) ↔ ∀ j ∈ items, j.Fits depth := by
  simp [Fits, term, termItems_eq_map, forall_and]

@[simp] theorem fits_obj {members : List (String × Json)} :
    (obj members).Fits (depth + 1) ↔ ∀ m ∈ members, m.2.Fits depth := by
  simp only [Fits, term, termMembers_eq_map, Term.within_obj, floatFree_obj, List.forall_mem_map,
    forall_and]

@[simp] theorem fits_ofStrDict (d : Dict String) : (ofStrDict d).Fits (depth + 1) := by
  simp only [ofStrDict, fits_obj, List.forall_mem_map, fits_str, implies_true]

theorem within_object {members : List (String × Json)}
    (h : ∀ m ∈ members, m.2.term.Within depth) : (object members).term.Within (depth + 1) := by
  rw [object, term, termMembers_eq_map, Term.within_obj, List.forall_mem_map]
  exact fun m hm => h m (Dict.mem_of_mem_ofList hm)

theorem floatFree_object {members : List (String × Json)} (h : ∀ m ∈ members, m.2.FloatFree) :
    (object members).FloatFree :=
  floatFree_obj.2 fun m hm => h m (Dict.mem_of_mem_ofList hm)

@[simp] theorem fits_object {members : List (String × Json)} (h : ∀ m ∈ members, m.2.Fits depth) :
    (object members).Fits (depth + 1) :=
  ⟨within_object fun m hm => (h m hm).1, floatFree_object fun m hm => (h m hm).2⟩

@[simp] theorem fits_getD {α : Type} {json : α → Json} {o : Option α}
    (h : ∀ a ∈ o, (json a).Fits depth) : ((o.map json).getD .null).Fits depth := by
  cases o with
  | none => exact fits_null
  | some a => exact h a rfl

end

end Json

/-! ### Values of terms -/

namespace Term

mutual

/-- What holds of a list and of an object if it holds of the parts, and of all other terms, holds
of all terms. -/
@[elab_as_elim]
theorem induction_parts {motive : Term → Prop} (t : Term)
    (flat : ∀ t, (∀ items, t ≠ arr items) → (∀ members, t ≠ obj members) → motive t)
    (list : ∀ items, (∀ t ∈ items, motive t) → motive (arr items))
    (object : ∀ members, (∀ m ∈ members, motive m.2) → motive (obj members)) : motive t :=
  match t with
  | arr items => list items (induction_items items flat list object)
  | obj members => object members (induction_members members flat list object)
  | null | bool _ | num _ | str _ | unreadable => flat _ nofun nofun

theorem induction_items {motive : Term → Prop} (items : List Term)
    (flat : ∀ t, (∀ items, t ≠ arr items) → (∀ members, t ≠ obj members) → motive t)
    (list : ∀ items, (∀ t ∈ items, motive t) → motive (arr items))
    (object : ∀ members, (∀ m ∈ members, motive m.2) → motive (obj members)) :
    ∀ t ∈ items, motive t :=
  match items with
  | [] => nofun
  | t :: rest => List.forall_mem_cons.2
    ⟨induction_parts t flat list object, induction_items rest flat list object⟩

theorem induction_members {motive : Term → Prop} (members : List (String × Term))
    (flat : ∀ t, (∀ items, t ≠ arr items) → (∀ members, t ≠ obj members) → motive t)
    (list : ∀ items, (∀ t ∈ items, motive t) → motive (arr items))
    (object : ∀ members, (∀ m ∈ members, motive m.2) → motive (obj members)) :
    ∀ m ∈ members, motive m.2 :=
  match members with
  | [] => nofun
  | (_, t) :: rest => List.forall_mem_cons.2
    ⟨induction_parts t flat list object, induction_members rest flat list object⟩

end

/-- Each value of a list of terms is that of one of them. -/
theorem mem_of_values? {j : Json} : ∀ {ts : List Term} {js : List Json}, values? ts = some js →
    j ∈ js → ∃ t ∈ ts, t.value? = some j
  | [], _, h, hj => by cases h; cases hj
  | t :: ts, _, h, hj => by
    rw [values?] at h
    split at h
    case h_2 => cases h
    case h_1 j' js hj' hjs =>
      cases h
      rcases List.mem_cons.1 hj with rfl | hj
      · exact ⟨t, List.mem_cons_self, hj'⟩
      · obtain ⟨t', ht', h⟩ := mem_of_values? hjs hj
        exact ⟨t', List.mem_cons_of_mem _ ht', h⟩

theorem mem_of_memberValues? {m : String × Json} : ∀ {ts : List (String × Term)}
    {js : List (String × Json)}, memberValues? ts = some js → m ∈ js →
    ∃ m' ∈ ts, m'.2.value? = some m.2
  | [], _, h, hm => by cases h; cases hm
  | (k, t) :: ts, _, h, hm => by
    rw [memberValues?] at h
    split at h
    case h_2 => cases h
    case h_1 j js hj hjs =>
      cases h
      rcases List.mem_cons.1 hm with rfl | hm
      · exact ⟨(k, t), List.mem_cons_self, hj⟩
      · obtain ⟨m', hm', h⟩ := mem_of_memberValues? hjs hm
        exact ⟨m', List.mem_cons_of_mem _ hm', h⟩

/-- The value of a term is sorted at every level. -/
theorem canonical_of_value? {t : Term} {j : Json} (h : t.value? = some j) : j.Canonical := by
  induction t using induction_parts generalizing j with
  | flat t harr hobj =>
    cases t with
    | arr items => exact absurd rfl (harr items)
    | obj members => exact absurd rfl (hobj members)
    | unreadable => cases h
    | _ => cases h; trivial
  | list items ih =>
    obtain ⟨js, hjs, rfl⟩ := Option.map_eq_some_iff.1 h
    refine Json.canonical_arr.2 fun j hj => ?_
    obtain ⟨t, ht, hj⟩ := mem_of_values? hjs hj
    exact ih t ht hj
  | object members ih =>
    obtain ⟨js, hjs, rfl⟩ := Option.map_eq_some_iff.1 h
    refine Json.canonical_obj.2 ⟨(Dict.ofList js).ascending, fun m hm => ?_⟩
    obtain ⟨m', hm', hm⟩ := mem_of_memberValues? hjs (Dict.mem_of_mem_ofList hm)
    exact ih m' hm' hm

/-- The value of a term is no deeper than the term. -/
theorem within_of_value? {t : Term} {j : Json} {depth : Nat} (hdepth : t.Within depth)
    (h : t.value? = some j) : j.term.Within depth := by
  induction t using induction_parts generalizing j depth with
  | flat t harr hobj =>
    cases t with
    | arr items => exact absurd rfl (harr items)
    | obj members => exact absurd rfl (hobj members)
    | unreadable => cases h
    | _ => cases h; exact hdepth
  | list items ih =>
    obtain ⟨js, hjs, rfl⟩ := Option.map_eq_some_iff.1 h
    cases depth with
    | zero => simp [Within] at hdepth
    | succ depth =>
      rw [Json.term, Json.termItems_eq_map, within_arr, List.forall_mem_map]
      intro j hj
      obtain ⟨t, ht, hj⟩ := mem_of_values? hjs hj
      exact ih t ht (within_arr.1 hdepth t ht) hj
  | object members ih =>
    obtain ⟨js, hjs, rfl⟩ := Option.map_eq_some_iff.1 h
    cases depth with
    | zero => simp [Within] at hdepth
    | succ depth =>
      refine Json.within_object fun m hm => ?_
      obtain ⟨m', hm', hm⟩ := mem_of_memberValues? hjs hm
      exact ih m' hm' (within_obj.1 hdepth m' hm') hm

/-- Only null has the value null. -/
theorem eq_null_of_value? {t : Term} (h : t.value? = some .null) : t = null := by
  cases t with
  | null => rfl
  | arr items => obtain ⟨_, _, h⟩ := Option.map_eq_some_iff.1 h; cases h
  | obj members => obtain ⟨_, _, h⟩ := Option.map_eq_some_iff.1 h; cases h
  | _ => cases h

end Term

end CloudInventory
