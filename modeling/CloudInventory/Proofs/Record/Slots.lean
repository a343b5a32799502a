import CloudInventory.Record.Patch
import CloudInventory.Proofs.Json.Leaves
import Mathlib.Data.List.FinRange
import Mathlib.Data.List.Sort
import Mathlib.Logic.Equiv.Fin.Rotate

/-!
Records slot by slot. A slot is a part of a record that is set as one: an attribute, kind, id and
name together, or one key of the metadata or of the fields. The main statement says that a
description composes the one record in which each slot has what the last patch that sets it has put
there, so that patches which set no slot in common may change places.
-/

namespace CloudInventory

/-- A part of a record that is set as one. -/
inductive Slot where
  | provider
  | region
  | account
  /-- Kind and id, and with them the name. -/
  | identity
  | type
  | name
  | parents
  | children
  | metadata (key : String)
  | field (key : String)
  | destination

/-- What can be in a slot. -/
@[reducible]
def Slot.Value : Slot → Type
  | provider => Option Provider
  | identity => Option AssetKind × Option String × Option Ean
  | type => Option AssetType
  | parents => List Ean
  | children => List Ean
  | metadata _ => Option Json
  | field _ => Option Json
  | _ => Option String

namespace Record

/-- What a record has in a slot. -/
def part (r : Record) : (s : Slot) → s.Value
  | .provider => r.provider
  | .region => r.region
  | .account => r.account
  | .identity => (r.kind, r.id, r.ean)
  | .type => r.type
  | .name => r.name
  | .parents => r.parents
  | .children => r.children
  | .metadata key => r.metadata.get? key
  | .field key => r.fields.get? key
  | .destination => r.destination

/-- Records of one time are equal if they have the same in all slots. -/
theorem ext_part {r r' : Record} (htime : r.timestamp = r'.timestamp)
    (h : ∀ s, r.part s = r'.part s) : r = r' := by
  have hmetadata : r.metadata = r'.metadata := Dict.ext_get? fun key => h (.metadata key)
  have hfields : r.fields = r'.fields := Dict.ext_get? fun key => h (.field key)
  have hidentity : (r.kind, r.id, r.ean) = (r'.kind, r'.id, r'.ean) := h .identity
  simp only [Prod.mk.injEq] at hidentity
  obtain ⟨hkind, hid, hean⟩ := hidentity
  have hprovider : r.provider = r'.provider := h .provider
  have hregion : r.region = r'.region := h .region
  have haccount : r.account = r'.account := h .account
  have htype : r.type = r'.type := h .type
  have hname : r.name = r'.name := h .name
  have hparents : r.parents = r'.parents := h .parents
  have hchildren : r.children = r'.children := h .children
  have hdestination : r.destination = r'.destination := h .destination
  cases r
  cases r'
  simp_all only

end Record

namespace Patch

/-- What a patch puts in a slot, if it sets the slot. Metadata, tags and labels set the keys of
their leaves, and of several leaves with one key the last one counts. -/
def sets : Patch → (s : Slot) → Option s.Value
  | provider p, .provider => some (some p)
  | region r, .region => some (some r)
  | account a, .account => some (some a)
  | kindAndId kind id, .identity => some (some kind, some id, some ⟨kind, id⟩)
  | type t, .type => some (some t)
  | name n, .name => some (some n)
  | parents eans, .parents => some eans
  | children eans, .children => some eans
  | metadata members, .metadata key =>
    (Dict.lastOf key (members.toList.flatMap fun m => Json.leaves m.1 m.2)).map some
  | tags pairs, .metadata key =>
    (Dict.lastOf key (pairs.toList.map fun p => (Json.pathTo "tags" p.1, .str p.2))).map some
  | labels pairs, .metadata key =>
    (Dict.lastOf key (pairs.toList.map fun p => (Json.pathTo "labels" p.1, .str p.2))).map some
  | field path value, .field key => (Dict.lastOf key (Json.leaves path value)).map some
  | destination d, .destination => some (some d)
  | _, _ => none

theorem or_eq_getD_map {α : Type} (o d : Option α) : o.or d = (o.map some).getD d := by
  cases o <;> rfl

/-- A patch leaves the slots alone that it does not set. -/
theorem part_apply (p : Patch) (r : Record) (s : Slot) :
    (p.apply r).part s = (p.sets s).getD (r.part s) := by
  have hlast (pairs : List (String × Json)) (d : Dict Json) (key : String) :
      (d.insertAll (Dict.ofList pairs).toList).get? key =
        ((Dict.lastOf key pairs).map some).getD (d.get? key) := by
    rw [Dict.insertAll_toList_ofList, Dict.get?_insertAll, or_eq_getD_map]
  cases p with
  | metadata members =>
    cases s with
    | metadata key =>
      show (r.metadata.insertAll (Json.flatten members).toList).get? key = _
      rw [Json.flatten_eq_ofList, hlast]
      rfl
    | _ => rfl
  | tags pairs =>
    cases s with
    | metadata key => exact hlast _ _ _
    | _ => rfl
  | labels pairs =>
    cases s with
    | metadata key => exact hlast _ _ _
    | _ => rfl
  | field path value =>
    cases s with
    | field key =>
      show (value.flattenInto path r.fields).get? key = _
      rw [Json.flattenInto_eq_insertAll, Dict.get?_insertAll, or_eq_getD_map]
      rfl
    | _ => rfl
  | _ => cases s <;> rfl

/-! ### Descriptions -/

/-- What the last patch that sets a slot puts there, if there is one. -/
def lastIn? (s : Slot) (ps : List Patch) : Option s.Value :=
  (ps.filterMap fun p => p.sets s).getLast?

theorem lastIn?_cons (s : Slot) (p : Patch) (ps : List Patch) :
    lastIn? s (p :: ps) = (lastIn? s ps).or (p.sets s) :=
  Dict.getLast?_filterMap_cons _ p ps

theorem lastIn?_append (s : Slot) (ps qs : List Patch) :
    lastIn? s (ps ++ qs) = (lastIn? s qs).or (lastIn? s ps) := by
  rw [lastIn?, List.filterMap_append, List.getLast?_append]
  rfl

theorem lastIn?_eq_none {s : Slot} {ps : List Patch} (h : ∀ p ∈ ps, p.sets s = none) :
    lastIn? s ps = none := by
  rw [lastIn?, List.filterMap_eq_nil_iff.2 h]
  rfl

theorem part_foldl (s : Slot) : ∀ (ps : List Patch) (r : Record),
    (ps.foldl apply r).part s = (lastIn? s ps).getD (r.part s)
  | [], _ => rfl
  | p :: ps, r => by
    rw [List.foldl_cons, part_foldl s ps, part_apply, lastIn?_cons]
    cases lastIn? s ps <;> rfl

theorem timestamp_foldl : ∀ (ps : List Patch) (r : Record),
    (ps.foldl apply r).timestamp = r.timestamp
  | [], _ => rfl
  | p :: ps, r => by
    rw [List.foldl_cons, timestamp_foldl ps]
    cases p <;> rfl

/-! ### Changing places -/

/-- There is a slot that both patches set. -/
def Overlaps (p q : Patch) : Prop := ∃ s, (p.sets s).isSome ∧ (q.sets s).isSome

/-- The second list has the patches of the first one at other places, but of two patches that
overlap the earlier one is still the earlier one. -/
def Reorders (ps ps' : List Patch) : Prop :=
  ∃ place : Fin ps.length ≃ Fin ps'.length, (∀ i, ps'.get (place i) = ps.get i) ∧
    ∀ i j, i < j → (ps.get i).Overlaps (ps.get j) → place i < place j

/-- The places of the patches that set a slot, in order. -/
def setters (s : Slot) (ps : List Patch) : List (Fin ps.length) :=
  (List.finRange ps.length).filter fun i => ((ps.get i).sets s).isSome

theorem pairwise_setters (s : Slot) (ps : List Patch) : (setters s ps).Pairwise (· < ·) :=
  (List.pairwise_lt_finRange ps.length).filter _

theorem mem_setters {s : Slot} {ps : List Patch} {i : Fin ps.length} :
    i ∈ setters s ps ↔ ((ps.get i).sets s).isSome = true := by
  simp [setters]

theorem lastIn?_eq_setters (s : Slot) (ps : List Patch) :
    lastIn? s ps = ((setters s ps).filterMap fun i => (ps.get i).sets s).getLast? := by
  have hall : ps = (List.finRange ps.length).map ps.get := by simp
  have hsome (i : Fin ps.length) :
      (if ((ps.get i).sets s).isSome = true then (ps.get i).sets s else none) =
        (ps.get i).sets s := by
    cases (ps.get i).sets s <;> rfl
  rw [lastIn?, setters, List.filterMap_filter]
  conv_lhs => rw [hall, List.filterMap_map]
  exact congrArg _ (List.filterMap_congr fun i _ => (hsome i).symm)

/-- The patches that set a slot keep their order. -/
theorem map_setters {ps ps' : List Patch} {place : Fin ps.length ≃ Fin ps'.length}
    (hsame : ∀ i, ps'.get (place i) = ps.get i)
    (horder : ∀ i j, i < j → (ps.get i).Overlaps (ps.get j) → place i < place j) (s : Slot) :
    (setters s ps).map place = setters s ps' := by
  refine List.Pairwise.eq_of_mem_iff (r := (· < ·)) ?_ (pairwise_setters s ps') fun j => ?_
  · refine List.pairwise_map.2 ((pairwise_setters s ps).imp_of_mem fun {i j} hi hj hlt => ?_)
    exact horder i j hlt ⟨s, mem_setters.1 hi, mem_setters.1 hj⟩
  · obtain ⟨i, rfl⟩ := place.surjective j
    rw [List.mem_map_of_injective place.injective, mem_setters, mem_setters, hsame]

theorem lastIn?_reorder {ps ps' : List Patch} (h : Reorders ps ps') (s : Slot) :
    lastIn? s ps' = lastIn? s ps := by
  obtain ⟨place, hsame, horder⟩ := h
  rw [lastIn?_eq_setters, lastIn?_eq_setters, ← map_setters hsame horder, List.filterMap_map]
  exact congrArg _ (List.filterMap_congr fun i _ => congrArg (·.sets s) (hsame i))

end Patch

namespace Record

open Patch

/-- CORRECT: a description composes the record of its time in which each slot has what the last
patch that sets it has put there, and a slot that no patch sets is unset. And it composes the same
record when patches change places, as long as those that overlap keep their order. -/
theorem compose_lastIn (stamp : Instant) (ps : List Patch) :
    (∀ r, r = compose stamp ps ↔ r.timestamp = stamp ∧
        ∀ s, r.part s = (lastIn? s ps).getD ((blank stamp).part s)) ∧
      ∀ ps', Reorders ps ps' → compose stamp ps' = compose stamp ps := by
  have htime (ps : List Patch) : (compose stamp ps).timestamp = stamp := timestamp_foldl ps _
  have hpart (ps : List Patch) (s : Slot) :
      (compose stamp ps).part s = (lastIn? s ps).getD ((blank stamp).part s) := part_foldl s ps _
  refine ⟨fun r => ⟨?_, fun ⟨hstamp, hslots⟩ => ?_⟩, fun ps' h => ?_⟩
  · rintro rfl
    exact ⟨htime ps, hpart ps⟩
  · exact ext_part (hstamp.trans (htime ps).symm) fun s => (hslots s).trans (hpart ps s).symm
  · refine ext_part ((htime ps').trans (htime ps).symm) fun s => ?_
    rw [hpart, hpart, lastIn?_reorder h]

/-- A name, a tag and the same tag as metadata. -/
def taggedTwice : List Patch :=
  [.name "n", .tags (.ofList [("k", "1")]),
    .metadata (.ofList [("tags", .obj [("k", .str "2")])])]

/-- The tags as before, and the name last. -/
def namedLast : List Patch :=
  [.tags (.ofList [("k", "1")]), .metadata (.ofList [("tags", .obj [("k", .str "2")])]),
    .name "n"]

/-- The name may go to the end, and of the tag the second value stays. -/
theorem compose_namedLast :
    Reorders taggedTwice namedLast ∧
      compose .epoch namedLast = compose .epoch taggedTwice ∧
      (compose .epoch namedLast).part (.metadata "tags.k") = some (.str "2") := by
  have hfirst : ∀ i j : Fin 3, i < j →
      i = 0 ∧ 0 < j ∨ (finRotate 3).symm i < (finRotate 3).symm j := by decide
  have hnamed : ∀ s, ((Patch.name "n").sets s).isSome = true → s = .name := by
    intro s hs
    cases s <;> first | rfl | cases hs
  have hrest : ∀ j : Fin 3, 0 < j → (taggedTwice.get j).sets .name = none := by decide
  have h : Reorders taggedTwice namedLast := by
    refine ⟨(finRotate 3).symm, by decide, fun i j hlt hoverlap => ?_⟩
    refine (hfirst i j hlt).resolve_left ?_
    rintro ⟨rfl, hj⟩
    obtain ⟨s, hi, hs⟩ := hoverlap
    rw [hnamed s hi, hrest j hj] at hs
    cases hs
  refine ⟨h, (compose_lastIn .epoch taggedTwice).2 namedLast h, ?_⟩
  decide

end Record

end CloudInventory
