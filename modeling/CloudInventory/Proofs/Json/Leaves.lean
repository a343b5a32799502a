import CloudInventory.Json.Flat

/-!
The leaves of a value, each with its path, in the order in which they are visited. Flattening a
value sets its leaves one after another, so that of two leaves with one path the later one stays.
-/

namespace CloudInventory

namespace Dict

variable {α : Type}

/-- The last value of a list with one more item at its front. -/
theorem getLast?_filterMap_cons {β : Type} (f : β → Option α) (b : β) (bs : List β) :
    ((b :: bs).filterMap f).getLast? = (bs.filterMap f).getLast?.or (f b) := by
  rw [List.getLast?_filterMap, List.getLast?_filterMap, List.reverse_cons, List.findSome?_append,
    List.findSome?_singleton]

/-- The value of the last pair with a key. -/
def lastOf (k : String) (pairs : List (String × α)) : Option α :=
  (pairs.filterMap fun e => if e.1 = k then some e.2 else none).getLast?

theorem lastOf_cons (k : String) (e : String × α) (es : List (String × α)) :
    lastOf k (e :: es) = (lastOf k es).or (if e.1 = k then some e.2 else none) :=
  getLast?_filterMap_cons _ e es

theorem insertAll_append (d : Dict α) (ps qs : List (String × α)) :
    d.insertAll (ps ++ qs) = (d.insertAll ps).insertAll qs :=
  List.foldl_append

/-- The last of several pairs with a key wins. -/
theorem get?_insertAll (k : String) : ∀ (pairs : List (String × α)) (d : Dict α),
    (d.insertAll pairs).get? k = (lastOf k pairs).or (d.get? k)
  | [], _ => rfl
  | e :: es, d => by
    show ((d.insert e.1 e.2).insertAll es).get? k = _
    rw [get?_insertAll k es, get?_insert, lastOf_cons]
    cases lastOf k es with
    | some v => rfl
    | none =>
      by_cases h : e.1 = k
      · simp [h]
      · simp [h, Ne.symm h]

theorem get?_ofList (k : String) (pairs : List (String × α)) :
    (ofList pairs).get? k = lastOf k pairs := by
  rw [ofList, get?_insertAll, get?_empty, Option.or_none]

theorem ofList_toList (d : Dict α) : ofList d.toList = d :=
  ext_get? fun _ => congrArg _ (toList_ofList d.ascending)

theorem lastOf_toList (k : String) (d : Dict α) : lastOf k d.toList = d.get? k := by
  rw [← get?_ofList, ofList_toList]

/-- Setting the entries of a dictionary of pairs is setting the pairs. -/
theorem insertAll_toList_ofList (d : Dict α) (pairs : List (String × α)) :
    d.insertAll (ofList pairs).toList = d.insertAll pairs := by
  refine ext_get? fun k => ?_
  rw [get?_insertAll, get?_insertAll, lastOf_toList, get?_ofList]

end Dict

namespace Json

mutual

/-- The leaves of a value under a path. -/
def leaves (path : String) (j : Json) : List (String × Json) :=
  match j with
  | obj members => memberLeaves path members
  | leaf => [(path, leaf)]

/-- The leaves of an object's members under the path of the object. -/
def memberLeaves (path : String) (members : List (String × Json)) : List (String × Json) :=
  match members with
  | [] => []
  | (key, j) :: rest => leaves (pathTo path key) j ++ memberLeaves path rest

end

mutual

/-- Flattening sets the leaves. -/
theorem flattenInto_eq_insertAll (path : String) (j : Json) (flat : Dict Json) :
    flattenInto path j flat = flat.insertAll (leaves path j) := by
  cases j with
  | obj members => exact flattenMembers_eq_insertAll path members flat
  | _ => rfl

theorem flattenMembers_eq_insertAll (path : String) (members : List (String × Json))
    (flat : Dict Json) :
    flattenMembers path members flat = flat.insertAll (memberLeaves path members) := by
  match members with
  | [] => rfl
  | (key, j) :: rest =>
    rw [flattenMembers, memberLeaves, Dict.insertAll_append,
      flattenInto_eq_insertAll (pathTo path key) j, flattenMembers_eq_insertAll path rest]

end

/-- The flat form of an object has the last leaf of each path. -/
theorem flatten_eq_ofList (members : Dict Json) :
    flatten members = .ofList (members.toList.flatMap fun m => leaves m.1 m.2) := by
  rw [flatten, Dict.ofList, Dict.insertAll, List.foldl_flatMap]
  exact congrArg (members.toList.foldl · Dict.empty)
    (funext fun flat => funext fun m => flattenInto_eq_insertAll m.1 m.2 flat)

end Json

end CloudInventory
