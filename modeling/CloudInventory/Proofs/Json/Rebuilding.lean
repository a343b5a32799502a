import CloudInventory.Proofs.Json.Paths
import CloudInventory.Proofs.Text.Fields
import Mathlib.Data.List.Perm.Basic

/-!
What flat forms keep. A flat form has the key of each leaf, and where leaves share a key it has the
one that is visited last. If no name on the way to a leaf is empty or has a dot, then no two leaves
share a key, since the key falls into the names again at its dots. So the leaves can be put back to
where they were, one after another in any order, and all that is lost are objects without leaves.
-/

namespace CloudInventory

namespace Dict

variable {α : Type}

/-- The last pair with a key is the one with no such pair behind it. -/
theorem lastOf_eq_some_iff {k : String} {v : α} {es : List (String × α)} :
    lastOf k es = some v ↔
      ∃ front rest, es = front ++ (k, v) :: rest ∧ ∀ e ∈ rest, e.1 ≠ k := by
  have hnone (es : List (String × α)) : lastOf k es = none ↔ ∀ e ∈ es, e.1 ≠ k := by
    simp [lastOf]
  induction es with
  | nil => simp [lastOf]
  | cons e es ih =>
    simp only [lastOf_cons, Option.or_eq_some_iff, ih, hnone]
    constructor
    · rintro (⟨front, rest, rfl, hrest⟩ | ⟨hrest, h⟩)
      · exact ⟨e :: front, rest, rfl, hrest⟩
      · split at h
        case isTrue hk => exact ⟨[], es, by rw [← hk, ← Option.some.inj h]; rfl, hrest⟩
        case isFalse => cases h
    · rintro ⟨front, rest, hes, hrest⟩
      cases front with
      | nil =>
        obtain ⟨rfl, rfl⟩ := List.cons.inj hes
        exact .inr ⟨hrest, if_pos rfl⟩
      | cons e' front => exact .inl ⟨front, rest, (List.cons.inj hes).2, hrest⟩

/-- A dictionary of pairs with different keys lists just these pairs. -/
theorem toList_ofList_perm {pairs : List (String × α)} (h : (pairs.map Prod.fst).Nodup) :
    (ofList pairs).toList.Perm pairs := by
  have hnodup {es : List (String × α)} (h : (es.map Prod.fst).Nodup) : es.Nodup :=
    List.Pairwise.of_map Prod.fst (fun _ _ hne he => hne (congrArg Prod.fst he)) h
  refine (List.perm_ext_iff_of_nodup (hnodup (nodup_keys _)) (hnodup h)).2 ?_
  rintro ⟨k, v⟩
  show (k, v) ∈ (ofList pairs).toList ↔ _
  rw [← get?_eq_some_iff, get?_ofList, lastOf_eq_some_iff]
  constructor
  · rintro ⟨front, rest, rfl, -⟩
    exact List.mem_append_right _ List.mem_cons_self
  · intro hmem
    obtain ⟨front, rest, rfl⟩ := List.append_of_mem hmem
    refine ⟨front, rest, rfl, fun e he hk => ?_⟩
    rw [List.map_append, List.map_cons] at h
    have hrest := (List.nodup_cons.1 (List.nodup_append.1 h).2.1).1
    exact hrest (List.mem_map.2 ⟨e, he, hk⟩)

end Dict

namespace Entries

variable {α : Type}

theorem insert_insert_self (k : String) (v w : α) (es : List (String × α)) :
    insert k w (insert k v es) = insert k w es := by
  induction es with
  | nil => simp [insert]
  | cons e es ih =>
    simp only [insert]
    split
    · simp [insert]
    · split
      case isTrue hlt hgt => simp [insert, hlt, hgt, ih]
      case isFalse => simp [insert]

theorem insert_insert_of_lt {k j : String} (h : k < j) (v w : α) (es : List (String × α)) :
    insert k v (insert j w es) = insert j w (insert k v es) := by
  have hjk : ¬ j < k := String.lt_asymm h
  induction es with
  | nil => simp [insert, h, hjk]
  | cons e es ih =>
    by_cases hk : k < e.1
    · -- the lesser key stands in front of all, whatever becomes of the greater one
      have hfront : insert k v (e :: es) = (k, v) :: e :: es := by simp [insert, hk]
      have hbehind : insert j w ((k, v) :: e :: es) = (k, v) :: insert j w (e :: es) := by
        rw [insert, if_neg hjk, if_pos h]
      rw [hfront, hbehind]
      by_cases hj : j < e.1
      · simp [insert, hj, h]
      · by_cases hj' : e.1 < j
        · simp [insert, hj, hj', hk]
        · simp [insert, hj, hj', h]
    · have hej : e.1 < j := (lt_or_eq_of_not_lt hk).elim (String.lt_trans · h) (· ▸ h)
      have hje : ¬ j < e.1 := String.lt_asymm hej
      by_cases hk' : e.1 < k
      · simp [insert, hk, hk', hej, hje, ih]
      · simp [insert, hk, hk', hej, hje, h, hjk]

theorem insert_comm {k j : String} (h : k ≠ j) (v w : α) (es : List (String × α)) :
    insert k v (insert j w es) = insert j w (insert k v es) := by
  by_cases hlt : k < j
  · exact insert_insert_of_lt hlt v w es
  · have hgt : j < k := (lt_or_eq_of_not_lt hlt).resolve_right fun he => h he.symm
    exact (insert_insert_of_lt hgt w v es).symm

end Entries

namespace Json

/-! ### Putting leaves back -/

/-- The members of an object. -/
def members : Json → List (String × Json)
  | obj members => members
  | _ => []

/-- What is in an object under a name; an empty object if there is nothing yet. -/
def child (key : String) (j : Json) : Json := (Entries.get? key j.members).getD (obj [])

/-- Put a value at the end of a path, with objects on the way to it. -/
def put (v : Json) : List String → Json → Json
  | [], _ => v
  | key :: path, j => obj (Entries.insert key (put v path (j.child key)) j.members)

/-- Put the entries of a flat form back to where their keys say that they were. -/
def rebuild (flat : Dict Json) : Json :=
  flat.toList.foldl (fun j e => put e.2 (Text.fields '.' e.1) j) (obj [])

mutual

/-- A value without its empty objects, and without those that become empty. -/
def prune : Json → Json
  | obj members => obj (pruneMembers members)
  | leaf => leaf

/-- Members without empty objects. -/
def pruneMembers : List (String × Json) → List (String × Json)
  | [] => []
  | (key, j) :: rest =>
    if prune j = obj [] then pruneMembers rest else (key, prune j) :: pruneMembers rest

end

mutual

/-- No name of a member is empty or has a dot, at any level. -/
def Plain : Json → Prop
  | obj members => PlainMembers members
  | _ => True

/-- No name is empty or has a dot, neither of a member nor inside of one. -/
def PlainMembers : List (String × Json) → Prop
  | [] => True
  | (key, j) :: rest => key ≠ "" ∧ '.' ∉ key.toList ∧ Plain j ∧ PlainMembers rest

end

/-- Values that are put to the ends of different branches may be put in any order. -/
theorem put_comm {v w : Json} : ∀ {path path' : List String} {j : Json},
    ¬ path <+: path' → ¬ path' <+: path →
    put v path (put w path' j) = put w path' (put v path j)
  | [], _, _, h, _ => absurd List.nil_prefix h
  | _ :: _, [], _, _, h => absurd List.nil_prefix h
  | key :: path, key' :: path', j, h, h' => by
    by_cases hkey : key = key'
    · subst hkey
      have hrest : ¬ path <+: path' := fun hp => h (List.cons_prefix_cons.2 ⟨rfl, hp⟩)
      have hrest' : ¬ path' <+: path := fun hp => h' (List.cons_prefix_cons.2 ⟨rfl, hp⟩)
      simp only [put, members, child, Entries.get?_insert_self, Option.getD_some,
        Entries.insert_insert_self]
      rw [put_comm hrest hrest']
    · simp only [put, members, child, Entries.get?_insert_of_ne _ hkey,
        Entries.get?_insert_of_ne _ (Ne.symm hkey)]
      rw [Entries.insert_comm hkey]

/-- Put leaves back, one after another. -/
def fill (ls : List (List String × Json)) (j : Json) : Json :=
  ls.foldl (fun j l => put l.2 l.1 j) j

/-- Leaves of different paths may be put back in any order. -/
theorem fill_perm {ls ls' : List (List String × Json)} (h : ls.Perm ls')
    (hbranches : ∀ l ∈ ls, ∀ l' ∈ ls, l.1 <+: l'.1 → l = l') (j : Json) :
    fill ls j = fill ls' j := by
  refine h.foldl_eq' (fun l hl l' hl' j => ?_) j
  by_cases he : l = l'
  · rw [he]
  · exact put_comm (fun hp => he (hbranches l' hl' l hl hp).symm)
      fun hp => he (hbranches l hl l' hl' hp)

theorem get?_append_of_lt {α : Type} {key : String} {front : List (String × α)}
    (h : ∀ e ∈ front, e.1 < key) (es : List (String × α)) :
    Entries.get? key (front ++ es) = Entries.get? key es := by
  induction front with
  | nil => rfl
  | cons e front ih =>
    have hne : e.1 ≠ key := fun he => String.lt_irrefl key (he ▸ h e List.mem_cons_self)
    rw [List.cons_append, Entries.get?, if_neg hne,
      ih fun e' he' => h e' (List.mem_cons_of_mem _ he')]

theorem insert_append_of_lt {α : Type} {key : String} {front : List (String × α)}
    (h : ∀ e ∈ front, e.1 < key) (v : α) (es : List (String × α)) :
    Entries.insert key v (front ++ es) = front ++ Entries.insert key v es := by
  induction front with
  | nil => rfl
  | cons e front ih =>
    have he : e.1 < key := h e List.mem_cons_self
    rw [List.cons_append, Entries.insert, if_neg (String.lt_asymm he), if_pos he,
      ih fun e' he' => h e' (List.mem_cons_of_mem _ he')]
    rfl

/-- Leaves under the last name of an object are put back in what is there. -/
theorem fill_under {key : String} {front : List (String × Json)} (h : ∀ e ∈ front, e.1 < key) :
    ∀ (ls : List (List String × Json)) (j : Json),
      fill (ls.map (Prod.map (key :: ·) id)) (obj (front ++ [(key, j)])) =
        obj (front ++ [(key, fill ls j)])
  | [], _ => rfl
  | l :: ls, j => by
    have hput : put l.2 (key :: l.1) (obj (front ++ [(key, j)])) =
        obj (front ++ [(key, put l.2 l.1 j)]) := by
      rw [put, child, members, get?_append_of_lt h, insert_append_of_lt h]
      simp [Entries.get?, Entries.insert]
    have hrest := fill_under h ls (put l.2 l.1 j)
    simpa only [fill, List.map_cons, List.foldl_cons, Prod.map_fst, Prod.map_snd, id, hput]
      using hrest

/-- The same when nothing is there yet: without leaves it stays so. -/
theorem fill_member {key : String} {front : List (String × Json)} (h : ∀ e ∈ front, e.1 < key)
    (ls : List (List String × Json)) :
    fill (ls.map (Prod.map (key :: ·) id)) (obj front) =
      obj (front ++ if ls = [] then [] else [(key, fill ls (obj []))]) := by
  cases ls with
  | nil => simp [fill]
  | cons l ls =>
    have hput : put l.2 (key :: l.1) (obj front) =
        obj (front ++ [(key, put l.2 l.1 (obj []))]) := by
      have hget := get?_append_of_lt h []
      rw [List.append_nil] at hget
      rw [put, child, members, hget, Entries.insert_of_lt h]
      rfl
    have hrest := fill_under h ls (put l.2 l.1 (obj []))
    simpa only [fill, List.map_cons, List.foldl_cons, Prod.map_fst, Prod.map_snd, id, hput,
      reduceCtorEq, if_false] using hrest

theorem prune_of_not_isObject {j : Json} (h : j.isObject = false) : prune j = j := by
  cases j <;> first | rfl | cases h

/-- A value without leaves is pruned to nothing, and no other is. -/
theorem prune_eq_empty_iff (j : Json) : prune j = obj [] ↔ leafPaths j = [] := by
  induction j using induction_object with
  | leaf j hj =>
    rw [prune_of_not_isObject hj, leafPaths_of_not_isObject hj]
    refine iff_of_false (fun he => ?_) (List.cons_ne_nil _ _)
    rw [he] at hj
    cases hj
  | object members ih =>
    rw [prune, leafPaths, obj.injEq]
    induction members with
    | nil => simp [pruneMembers, memberPaths]
    | cons m members ihm =>
      have hm := ih m List.mem_cons_self
      have hrest := ihm fun m' hm' => ih m' (List.mem_cons_of_mem _ hm')
      rw [pruneMembers, memberPaths, List.append_eq_nil_iff, List.map_eq_nil_iff, ← hm, ← hrest]
      by_cases hprune : prune m.2 = obj []
      · rw [if_pos hprune, and_iff_right hprune]
      · rw [if_neg hprune]
        simp [hprune]

/-- All leaves put back in their order make the value again, but for objects without leaves. -/
theorem fill_leafPaths {j : Json} (hc : j.Canonical) : fill (leafPaths j) (obj []) = prune j := by
  induction j using induction_object with
  | leaf j hj =>
    rw [leafPaths_of_not_isObject hj, prune_of_not_isObject hj]
    rfl
  | object members ih =>
    obtain ⟨hascending, hmembers⟩ := canonical_obj.1 hc
    -- what is left of the members so far has lesser names than those to come
    suffices h : ∀ front : List (String × Json), (∀ e ∈ front, ∀ m ∈ members, e.1 < m.1) →
        fill (memberPaths members) (obj front) = obj (front ++ pruneMembers members) by
      have hall := h [] fun e he => absurd he List.not_mem_nil
      rwa [List.nil_append] at hall
    clear hc
    induction members with
    | nil => intro front _; simp [fill, memberPaths, pruneMembers]
    | cons m members ihm =>
      intro front hfront
      obtain ⟨hfirst, hrest⟩ := List.pairwise_cons.1 hascending
      have hlt : ∀ e ∈ front, e.1 < m.1 := fun e he => hfront e he m List.mem_cons_self
      have hmember := fill_member hlt (leafPaths m.2)
      have hm := ih m List.mem_cons_self (hmembers m List.mem_cons_self)
      have hmore := ihm (fun m' hm' => ih m' (List.mem_cons_of_mem _ hm')) hrest
        (fun m' hm' => hmembers m' (List.mem_cons_of_mem _ hm'))
      have hcons : fill (memberPaths (m :: members)) (obj front) =
          fill (memberPaths members) (fill ((leafPaths m.2).map (Prod.map (m.1 :: ·) id))
            (obj front)) := by
        rw [memberPaths, fill, List.foldl_append]
        rfl
      rw [hcons, hmember, hm, pruneMembers]
      by_cases hempty : leafPaths m.2 = []
      · rw [if_pos hempty, if_pos ((prune_eq_empty_iff m.2).2 hempty), List.append_nil]
        exact hmore front fun e he m' hm' => hfront e he m' (List.mem_cons_of_mem _ hm')
      · rw [if_neg hempty, if_neg fun he => hempty ((prune_eq_empty_iff m.2).1 he),
          List.append_cons front (m.1, prune m.2) (pruneMembers members)]
        refine hmore _ fun e he m' hm' => ?_
        rcases List.mem_append.1 he with he | he
        · exact hfront e he m' (List.mem_cons_of_mem _ hm')
        · obtain rfl := List.mem_singleton.1 he
          exact hfirst m' hm'

/-! ### Plain names -/

theorem plainMembers_iff {members : List (String × Json)} :
    PlainMembers members ↔ ∀ m ∈ members, m.1 ≠ "" ∧ '.' ∉ m.1.toList ∧ m.2.Plain := by
  induction members with
  | nil => simp [PlainMembers]
  | cons m members ih => simp [PlainMembers, ih, and_assoc]

/-- On the way to a leaf all names are plain. -/
theorem Plain.of_mem_leafPaths {j : Json} (h : j.Plain) {path : List String} {leaf : Json}
    (hleaf : (path, leaf) ∈ leafPaths j) : ∀ key ∈ path, key ≠ "" ∧ '.' ∉ key.toList := by
  induction j using induction_object generalizing path with
  | leaf j hj =>
    rw [leafPaths_of_not_isObject hj] at hleaf
    obtain ⟨rfl, -⟩ := Prod.mk.inj (List.mem_singleton.1 hleaf)
    exact fun key hkey => absurd hkey List.not_mem_nil
  | object members ih =>
    rw [Plain, plainMembers_iff] at h
    rw [leafPaths] at hleaf
    obtain ⟨m, hm, rest, rfl, hrest⟩ := mem_memberPaths.1 hleaf
    obtain ⟨hempty, hdot, hplain⟩ := h m hm
    exact List.forall_mem_cons.2 ⟨⟨hempty, hdot⟩, ih m hm hplain hrest⟩

theorem fields_foldl_pathTo : ∀ {path : List String} {start : String}, start ≠ "" →
    (∀ key ∈ path, '.' ∉ key.toList) →
    Text.fields '.' (path.foldl pathTo start) = Text.fields '.' start ++ path
  | [], _, _, _ => (List.append_nil _).symm
  | key :: path, start, hstart, h => by
    obtain ⟨hkey, hpath⟩ := List.forall_mem_cons.1 h
    have hnext : pathTo start key = start ++ String.singleton '.' ++ key := if_neg hstart
    have hne : start ++ String.singleton '.' ++ key ≠ "" := fun he => by
      have hlist := congrArg String.toList he
      simp at hlist
    rw [List.foldl_cons, hnext, fields_foldl_pathTo hne hpath, Text.fields_append,
      Text.fields_of_not_mem hkey, List.append_assoc]
    rfl

/-- A key falls into the names of its path again, if these are plain. -/
theorem fields_keyOf {path : List String} (hpath : path ≠ [])
    (h : ∀ key ∈ path, key ≠ "" ∧ '.' ∉ key.toList) : Text.fields '.' (keyOf path) = path := by
  cases path with
  | nil => exact absurd rfl hpath
  | cons key path =>
    obtain ⟨⟨hne, hkey⟩, hrest⟩ := List.forall_mem_cons.1 h
    have hstart : keyOf (key :: path) = path.foldl pathTo key := rfl
    rw [hstart, fields_foldl_pathTo hne fun k hk => (hrest k hk).2, Text.fields_of_not_mem hkey]
    rfl

/-! ### Flat forms -/

theorem ne_nil_of_isLeaf_ofDict {d : Dict Json} {path : List String} {leaf : Json}
    (h : (ofDict d).IsLeaf path leaf) : path ≠ [] := by
  rintro rfl
  have hobject : (ofDict d).isObject = false := Option.some.inj h.1 ▸ h.2
  cases hobject

theorem get?_flatten_iff {d : Dict Json} (hc : (ofDict d).Canonical) {key : String}
    {leaf : Json} :
    (flatten d).get? key = some leaf ↔ ∃ path, (ofDict d).IsLeaf path leaf ∧ keyOf path = key ∧
      ∀ path' leaf', (ofDict d).IsLeaf path' leaf' → keyOf path' = key → ¬ Before path path' := by
  have hsorted := pairwise_leafPaths hc
  simp only [flatten_eq_keys, Dict.get?_ofList, Dict.lastOf_eq_some_iff, ← mem_leafPaths hc]
  constructor
  · rintro ⟨front, rest, hsplit, hrest⟩
    obtain ⟨ls, ls', hls, rfl, htail⟩ := List.map_eq_append_iff.1 hsplit
    obtain ⟨⟨path, leaf'⟩, ls'', rfl, he, rfl⟩ := List.map_eq_cons_iff.1 htail
    obtain ⟨rfl, rfl⟩ := Prod.mk.inj he
    rw [hls] at hsorted ⊢
    refine ⟨path, by simp, rfl, fun path' leaf' hmem hkey hbefore => ?_⟩
    obtain ⟨-, hcons, hacross⟩ := List.pairwise_append.1 hsorted
    rcases List.mem_append.1 hmem with hmem | hmem
    · have hearlier : Before path' path := hacross _ hmem _ List.mem_cons_self
      exact List.lt_asymm hearlier hbefore
    · rcases List.mem_cons.1 hmem with he | hmem
      · obtain ⟨rfl, -⟩ := Prod.mk.inj he
        exact not_before_self _ hbefore
      · exact hrest _ (List.mem_map_of_mem hmem) hkey
  · rintro ⟨path, hmem, rfl, hlast⟩
    obtain ⟨ls, ls', hls⟩ := List.append_of_mem hmem
    refine ⟨ls.map fun l => (keyOf l.1, l.2), ls'.map fun l => (keyOf l.1, l.2), ?_, ?_⟩
    · rw [hls, List.map_append, List.map_cons]
    · intro e he hkey
      obtain ⟨l, hl, rfl⟩ := List.mem_map.1 he
      rw [hls] at hsorted
      have hlater := (List.pairwise_cons.1 (List.pairwise_append.1 hsorted).2.1).1 l hl
      refine hlast l.1 l.2 ?_ hkey hlater
      rw [hls]
      simp [hl]

/-- No value of a flat form is an object. -/
theorem not_isObject_of_flatten {d : Dict Json} {key : String} {leaf : Json}
    (h : (flatten d).get? key = some leaf) : leaf.isObject = false := by
  rw [flatten_eq_keys, Dict.get?_ofList, Dict.lastOf_eq_some_iff] at h
  obtain ⟨front, rest, hsplit, -⟩ := h
  have hmem : (key, leaf) ∈ (leafPaths (ofDict d)).map fun l => (keyOf l.1, l.2) := by
    rw [hsplit]
    simp
  obtain ⟨l, hl, he⟩ := List.mem_map.1 hmem
  obtain ⟨-, rfl⟩ := Prod.mk.inj he
  exact not_isObject_of_mem_leafPaths hl

theorem flatten_of_flat {d : Dict Json} (h : ∀ e ∈ d.toList, e.2.isObject = false) :
    flatten d = d := by
  have hleaves : ∀ e ∈ d.toList, leaves e.1 e.2 = [e] := by
    rintro ⟨key, j⟩ he
    have hj : j.isObject = false := h _ he
    cases j <;> first | rfl | cases hj
  rw [flatten_eq_ofList, List.flatMap_congr hleaves, List.flatMap_singleton', Dict.ofList_toList]

/-- The key of a leaf of a plain object tells its path. -/
theorem path_eq_of_keyOf_eq {d : Dict Json} (hc : (ofDict d).Canonical) (hplain : (ofDict d).Plain)
    {path path' : List String} {leaf leaf' : Json} (h : (ofDict d).IsLeaf path leaf)
    (h' : (ofDict d).IsLeaf path' leaf') (hkey : keyOf path = keyOf path') : path = path' := by
  have hfields {path : List String} {leaf : Json} (h : (ofDict d).IsLeaf path leaf) :
      Text.fields '.' (keyOf path) = path :=
    fields_keyOf (ne_nil_of_isLeaf_ofDict h) (hplain.of_mem_leafPaths ((mem_leafPaths hc).2 h))
  rw [← hfields h, hkey, hfields h']

/-- A flat form of a plain object lists its leaves, each under its key. -/
theorem toList_flatten_perm {d : Dict Json} (hc : (ofDict d).Canonical)
    (hplain : (ofDict d).Plain) :
    (flatten d).toList.Perm ((leafPaths (ofDict d)).map fun l => (keyOf l.1, l.2)) := by
  rw [flatten_eq_keys]
  refine Dict.toList_ofList_perm ?_
  rw [List.map_map]
  refine List.pairwise_map.2 ((pairwise_leafPaths hc).imp_of_mem fun hl hl' hbefore hkey => ?_)
  have hpath := path_eq_of_keyOf_eq hc hplain ((mem_leafPaths hc).1 hl) ((mem_leafPaths hc).1 hl')
    hkey
  exact not_before_self _ (hpath ▸ hbefore)

theorem rebuild_flatten {d : Dict Json} (hc : (ofDict d).Canonical) (hplain : (ofDict d).Plain) :
    rebuild (flatten d) = prune (ofDict d) := by
  have hperm := (toList_flatten_perm hc hplain).map fun e => (Text.fields '.' e.1, e.2)
  have hsame : ((leafPaths (ofDict d)).map fun l => (keyOf l.1, l.2)).map
      (fun e => (Text.fields '.' e.1, e.2)) = leafPaths (ofDict d) := by
    rw [List.map_map]
    refine (List.map_congr_left fun l hl => ?_).trans (List.map_id _)
    have hpath := fields_keyOf (ne_nil_of_isLeaf_ofDict ((mem_leafPaths hc).1 hl))
      (hplain.of_mem_leafPaths hl)
    simp [hpath]
  rw [hsame] at hperm
  have hfill : rebuild (flatten d) =
      fill ((flatten d).toList.map fun e => (Text.fields '.' e.1, e.2)) (obj []) := by
    rw [rebuild, fill, List.foldl_map]
  rw [hfill, ← fill_leafPaths hc]
  refine (fill_perm hperm.symm (fun l hl l' hl' hpre => ?_) _).symm
  have hleaf := (mem_leafPaths hc).1 hl
  have hleaf' := (mem_leafPaths hc).1 hl'
  have hpath := hleaf.eq_of_prefix hleaf' hpre
  rw [hpath] at hleaf'
  exact Prod.ext hpath.symm (Option.some.inj (hleaf.1.symm.trans hleaf'.1))

theorem namespaced_eq_flatten (space : String) (pairs : Dict String) :
    namespaced space pairs = flatten (.ofList [(space, ofStrDict pairs)]) := by
  have hleaves : ∀ es : List (String × String),
      memberLeaves space (es.map fun e => (e.1, str e.2)) =
        es.map fun e => (pathTo space e.1, str e.2) := by
    intro es
    induction es with
    | nil => rfl
    | cons e es ih => rw [List.map_cons, memberLeaves, ih]; rfl
  have hone : (Dict.ofList [(space, ofStrDict pairs)]).toList = [(space, ofStrDict pairs)] := rfl
  rw [flatten_eq_ofList, hone, List.flatMap_singleton, namespaced]
  exact congrArg Dict.ofList (hleaves pairs.toList).symm

/-- CORRECT: the flat form of an object has for each key the leaf that is visited last of those with
this key, and no other keys. None of its values is an object, so that it is its own flat form. If
all names in the object are plain, leaves of different paths have different keys: there are as many
entries as leaves, and putting them back makes the object again, but for its empty objects. The flat
form of texts under a namespace is that of the object which has them under the namespace. -/
theorem flatten_exact (d : Dict Json) (hc : (ofDict d).Canonical) :
    (∀ key leaf, (flatten d).get? key = some leaf ↔
      ∃ path, (ofDict d).IsLeaf path leaf ∧ keyOf path = key ∧ ∀ path' leaf',
        (ofDict d).IsLeaf path' leaf' → keyOf path' = key → ¬ Before path path') ∧
    (∀ key leaf, (flatten d).get? key = some leaf → leaf.isObject = false) ∧
    flatten (flatten d) = flatten d ∧
    ((ofDict d).Plain →
      (∀ path leaf path' leaf', (ofDict d).IsLeaf path leaf → (ofDict d).IsLeaf path' leaf' →
        keyOf path = keyOf path' → path = path') ∧
      (∃ ls : List (List String × Json), ls.Nodup ∧
        (∀ path leaf, (path, leaf) ∈ ls ↔ (ofDict d).IsLeaf path leaf) ∧
        (flatten d).size = ls.length) ∧
      rebuild (flatten d) = prune (ofDict d)) ∧
    (∀ space pairs, namespaced space pairs = flatten (.ofList [(space, ofStrDict pairs)])) := by
  refine ⟨fun _ _ => get?_flatten_iff hc, fun _ _ => not_isObject_of_flatten, ?_, fun hplain => ?_,
    namespaced_eq_flatten⟩
  · refine flatten_of_flat fun e he => ?_
    exact not_isObject_of_flatten (Dict.get?_eq_some_iff.2 he)
  · refine ⟨fun _ _ _ _ => path_eq_of_keyOf_eq hc hplain, ?_, rebuild_flatten hc hplain⟩
    refine ⟨leafPaths (ofDict d), ?_, fun _ _ => mem_leafPaths hc, ?_⟩
    · refine (pairwise_leafPaths hc).imp fun hbefore he => ?_
      rw [he] at hbefore
      exact not_before_self _ hbefore
    · exact (toList_flatten_perm hc hplain).length_eq.trans (List.length_map _)

/-- An object with an empty one inside, whose keys come in another order than its leaves. -/
def layered : Dict Json :=
  .ofList [("a", .object [("b", nat 1), ("e", obj [])]), ("a-c", bool true)]

/-- The two leaves are put back, and the empty object is lost. -/
theorem rebuild_layered :
    (ofDict layered).Canonical ∧ (ofDict layered).Plain ∧
      (flatten layered).toList = [("a-c", bool true), ("a.b", nat 1)] ∧
      rebuild (flatten layered) = .object [("a", .object [("b", nat 1)]), ("a-c", bool true)] := by
  have hmembers : layered.toList =
      [("a", obj [("b", nat 1), ("e", obj [])]), ("a-c", bool true)] := by decide
  have hinner : Entries.Ascending [("b", nat 1), ("e", obj [])] :=
    List.pairwise_pair.2 (by decide)
  have hcanonical : (ofDict layered).Canonical := by
    refine canonical_obj.2 ⟨layered.ascending, ?_⟩
    rw [hmembers]
    simp only [Canonical, CanonicalMembers, List.forall_mem_cons]
    exact ⟨⟨hinner, trivial, ⟨.nil, trivial⟩, trivial⟩, trivial, by simp⟩
  have hplain : (ofDict layered).Plain := by
    rw [ofDict, hmembers]
    simp [Plain, PlainMembers, nat]
  refine ⟨hcanonical, hplain, by decide, ?_⟩
  rw [((flatten_exact layered hcanonical).2.2.2.1 hplain).2.2]
  decide

end Json

end CloudInventory
