import CloudInventory.Proofs.Json.Leaves
import CloudInventory.Json.Term
import CloudInventory.Proofs.Text.Bytes

/-!
The leaves of a value by the names on the way to them. A leaf is what a path of names leads to, if
that is no object; on the way to a leaf there is no other. The leaves are visited in the order of
their paths, in which a path comes before another if at the first place where they differ its name
has the lesser bytes. The key of a leaf in the flat form is its path with dots between the names.
-/

namespace CloudInventory

namespace Json

/-- The value is an object. -/
def isObject : Json → Bool
  | obj _ => true
  | _ => false

/-- The path leads to a leaf. -/
def IsLeaf (j : Json) (path : List String) (leaf : Json) : Prop :=
  at? path j = some leaf ∧ leaf.isObject = false

/-- A path is visited before another. -/
def Before (path path' : List String) : Prop := path.map Text.bytes < path'.map Text.bytes

/-- The key of a path in a flat form. -/
def keyOf (path : List String) : String := path.foldl pathTo ""

mutual

/-- The leaves of a value with their paths, in the order in which they are visited. -/
def leafPaths (j : Json) : List (List String × Json) :=
  match j with
  | obj members => memberPaths members
  | leaf => [([], leaf)]

/-- The leaves of an object's members with their paths. -/
def memberPaths (members : List (String × Json)) : List (List String × Json) :=
  match members with
  | [] => []
  | (key, j) :: rest => (leafPaths j).map (Prod.map (key :: ·) id) ++ memberPaths rest

end

theorem leafPaths_of_not_isObject {j : Json} (h : j.isObject = false) :
    leafPaths j = [([], j)] := by
  cases j <;> first | rfl | cases h

theorem at?_of_not_isObject {j : Json} (h : j.isObject = false) (key : String)
    (path : List String) : at? (key :: path) j = none := by
  cases j <;> first | rfl | cases h

theorem at?_obj (key : String) (path : List String) (members : List (String × Json)) :
    at? (key :: path) (obj members) = (Entries.get? key members).bind (at? path) := by
  rw [at?, get?]
  cases Entries.get? key members <;> rfl

theorem at?_append : ∀ (path path' : List String) (j : Json),
    at? (path ++ path') j = (at? path j).bind (at? path')
  | [], _, _ => rfl
  | key :: path, path', j => by
    rw [List.cons_append, at?, at?]
    cases j.get? key with
    | none => rfl
    | some child => exact at?_append path path' child

/-- A path goes on nowhere from a leaf. -/
theorem IsLeaf.eq_of_prefix {j leaf leaf' : Json} {path path' : List String}
    (h : j.IsLeaf path leaf) (h' : j.IsLeaf path' leaf') (hpre : path <+: path') :
    path' = path := by
  obtain ⟨rest, rfl⟩ := hpre
  have hrest := h'.1
  rw [at?_append, h.1, Option.bind_some] at hrest
  cases rest with
  | nil => exact List.append_nil path
  | cons key rest =>
    rw [at?_of_not_isObject h.2] at hrest
    cases hrest

/-! ### Objects inside one another -/

mutual

/-- What holds of all leaves, and of an object if it holds of its members, holds of all values. -/
@[elab_as_elim]
theorem induction_object {motive : Json → Prop} (j : Json)
    (leaf : ∀ j, j.isObject = false → motive j)
    (object : ∀ members, (∀ m ∈ members, motive m.2) → motive (obj members)) : motive j :=
  match j with
  | obj members => object members (induction_members members leaf object)
  | null => leaf _ rfl
  | bool _ => leaf _ rfl
  | num _ => leaf _ rfl
  | str _ => leaf _ rfl
  | arr _ => leaf _ rfl

theorem induction_members {motive : Json → Prop} (members : List (String × Json))
    (leaf : ∀ j, j.isObject = false → motive j)
    (object : ∀ members, (∀ m ∈ members, motive m.2) → motive (obj members)) :
    ∀ m ∈ members, motive m.2 :=
  match members with
  | [] => fun _ hm => absurd hm List.not_mem_nil
  | (_, j) :: rest => fun m hm => by
    rcases List.mem_cons.1 hm with rfl | hm
    · exact induction_object j leaf object
    · exact induction_members rest leaf object m hm

end

theorem canonicalMembers_iff {members : List (String × Json)} :
    CanonicalMembers members ↔ ∀ m ∈ members, m.2.Canonical := by
  induction members with
  | nil => simp [CanonicalMembers]
  | cons m members ih => simp [CanonicalMembers, ih]

theorem canonical_obj {members : List (String × Json)} :
    (obj members).Canonical ↔ Entries.Ascending members ∧ ∀ m ∈ members, m.2.Canonical := by
  rw [Canonical, canonicalMembers_iff]

/-! ### All leaves are visited -/

theorem mem_map_cons {key : String} {path : List String} {leaf : Json}
    {ls : List (List String × Json)} :
    (path, leaf) ∈ ls.map (Prod.map (key :: ·) id) ↔
      ∃ rest, path = key :: rest ∧ (rest, leaf) ∈ ls := by
  constructor
  · intro h
    obtain ⟨⟨rest, leaf'⟩, hmem, he⟩ := List.mem_map.1 h
    obtain ⟨rfl, rfl⟩ := Prod.mk.inj he
    exact ⟨rest, rfl, hmem⟩
  · rintro ⟨rest, rfl, hmem⟩
    exact List.mem_map.2 ⟨(rest, leaf), hmem, rfl⟩

/-- A leaf of members is one of the leaves of some member. -/
theorem mem_memberPaths {path : List String} {leaf : Json} : ∀ {members : List (String × Json)},
    (path, leaf) ∈ memberPaths members ↔
      ∃ m ∈ members, ∃ rest, path = m.1 :: rest ∧ (rest, leaf) ∈ leafPaths m.2
  | [] => by simp [memberPaths]
  | (key, j) :: members => by
    rw [memberPaths, List.mem_append, mem_map_cons, mem_memberPaths]
    simp

/-- Just the leaves are visited. -/
theorem mem_leafPaths {j : Json} (hc : j.Canonical) {path : List String} {leaf : Json} :
    (path, leaf) ∈ leafPaths j ↔ j.IsLeaf path leaf := by
  induction j using induction_object generalizing path with
  | leaf j hj =>
    rw [leafPaths_of_not_isObject hj, List.mem_singleton, IsLeaf]
    cases path with
    | nil =>
      constructor
      · rintro ⟨⟩
        exact ⟨rfl, hj⟩
      · rintro ⟨hat, -⟩
        rw [Option.some.inj hat]
    | cons key path => simp [at?_of_not_isObject hj]
  | object members ih =>
    obtain ⟨hascending, hmembers⟩ := canonical_obj.1 hc
    rw [leafPaths, mem_memberPaths, IsLeaf]
    constructor
    · rintro ⟨m, hm, rest, rfl, hleaf⟩
      obtain ⟨hat, hleaf⟩ := (ih m hm (hmembers m hm)).1 hleaf
      rw [at?_obj, (Entries.get?_eq_some_iff_mem hascending).2 hm]
      exact ⟨hat, hleaf⟩
    · rintro ⟨hat, hleaf⟩
      cases path with
      | nil =>
        rw [← Option.some.inj hat] at hleaf
        cases hleaf
      | cons key rest =>
        rw [at?_obj] at hat
        obtain ⟨child, hchild, hat⟩ := Option.bind_eq_some_iff.1 hat
        have hm := (Entries.get?_eq_some_iff_mem hascending).1 hchild
        exact ⟨(key, child), hm, rest, rfl, (ih _ hm (hmembers _ hm)).2 ⟨hat, hleaf⟩⟩

theorem not_isObject_of_mem_leafPaths {j : Json} {path : List String} {leaf : Json}
    (h : (path, leaf) ∈ leafPaths j) : leaf.isObject = false := by
  induction j using induction_object generalizing path with
  | leaf j hj =>
    rw [leafPaths_of_not_isObject hj] at h
    obtain ⟨-, rfl⟩ := Prod.mk.inj (List.mem_singleton.1 h)
    exact hj
  | object members ih =>
    rw [leafPaths] at h
    obtain ⟨m, hm, rest, -, hleaf⟩ := mem_memberPaths.1 h
    exact ih m hm hleaf

/-! ### The order of visits -/

theorem before_cons_of_lt {key key' : String} (h : key < key') (path path' : List String) :
    Before (key :: path) (key' :: path') :=
  List.Lex.rel (Text.bytes_lt_iff.2 h)

theorem Before.cons {path path' : List String} (h : Before path path') (key : String) :
    Before (key :: path) (key :: path') :=
  List.Lex.cons h

theorem not_before_self (path : List String) : ¬ Before path path := List.lt_irrefl _

/-- Leaves are visited in the order of their paths. -/
theorem pairwise_leafPaths {j : Json} (hc : j.Canonical) :
    (leafPaths j).Pairwise fun l l' => Before l.1 l'.1 := by
  induction j using induction_object with
  | leaf j hj =>
    rw [leafPaths_of_not_isObject hj]
    exact List.pairwise_singleton _ _
  | object members ih =>
    obtain ⟨hascending, hmembers⟩ := canonical_obj.1 hc
    rw [leafPaths]
    clear hc
    induction members with
    | nil => exact .nil
    | cons m members ihm =>
      obtain ⟨hfirst, hrest⟩ := List.pairwise_cons.1 hascending
      rw [memberPaths, List.pairwise_append]
      refine ⟨?_, ?_, ?_⟩
      · refine List.pairwise_map.2 ((ih m List.mem_cons_self ?_).imp fun h => h.cons m.1)
        exact hmembers m List.mem_cons_self
      · exact ihm (fun m' hm' => ih m' (List.mem_cons_of_mem _ hm')) hrest
          fun m' hm' => hmembers m' (List.mem_cons_of_mem _ hm')
      · rintro ⟨path, leaf⟩ hl ⟨path', leaf'⟩ hl'
        obtain ⟨rest, rfl, -⟩ := mem_map_cons.1 hl
        obtain ⟨m', hm', rest', rfl, -⟩ := mem_memberPaths.1 hl'
        exact before_cons_of_lt (hfirst m' hm') _ _

/-! ### Keys -/

theorem leaves_eq (start : String) (j : Json) :
    leaves start j = (leafPaths j).map fun l => (l.1.foldl pathTo start, l.2) := by
  induction j using induction_object generalizing start with
  | leaf j hj => cases j <;> first | rfl | cases hj
  | object members ih =>
    rw [leaves, leafPaths]
    induction members with
    | nil => rfl
    | cons m members ihm =>
      rw [memberLeaves, memberPaths, List.map_append, List.map_map,
        ih m List.mem_cons_self, ihm fun m' hm' => ih m' (List.mem_cons_of_mem _ hm')]
      rfl

/-- The flat form of an object sets the key of each leaf, in the order of visits. -/
theorem flatten_eq_keys (members : Dict Json) :
    flatten members = .ofList ((leafPaths (ofDict members)).map fun l => (keyOf l.1, l.2)) := by
  have hleaves := leaves_eq "" (ofDict members)
  have hstart : ∀ es : List (String × Json),
      memberLeaves "" es = es.flatMap fun m => leaves m.1 m.2 := by
    intro es
    induction es with
    | nil => rfl
    | cons m es ih => rw [memberLeaves, ih]; rfl
  rw [flatten_eq_ofList, ← hstart]
  exact congrArg Dict.ofList hleaves

end Json

end CloudInventory
