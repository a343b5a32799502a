import CloudInventory.Proofs.Cache.Ideal

/-!
Caches of two capacities under the same requests. They do not hold the same entries: a lookup may
hit in the larger one alone and touch the entry there, and expired entries are purged at different
moments. But what is live in the smaller one is live in the larger one, in the same order of
touches, and the larger one never has more live entries besides than its capacity is larger. So
when the larger one has to give up an entry the smaller one is full too, and gives one up that was
touched at least as late. All this is so as long as no put breaks off: what that leaves in the list
of touches may later cost an entry its place in the larger cache alone.
-/

namespace CloudInventory

/-! ### Lists that hold part of others -/

namespace Held

variable {α : Type}

theorem find?_link_eq_none_iff {hs : List (Held α)} {link : String} :
    hs.find? (fun x => x.link = link) = none ↔ link ∉ hs.map Held.link := by
  simp

theorem find?_link_eq_some_iff {hs : List (Held α)} (hnodup : (hs.map Held.link).Nodup)
    {link : String} {x : Held α} :
    hs.find? (fun y => y.link = link) = some x ↔ x ∈ hs ∧ x.link = link := by
  refine ⟨fun hfind => ⟨List.mem_of_find?_eq_some hfind, by simpa using List.find?_some hfind⟩,
    fun ⟨hx, hlink⟩ => ?_⟩
  cases hfind : hs.find? (fun y => y.link = link) with
  | none => exact absurd (hlink ▸ List.mem_map_of_mem hx) (find?_link_eq_none_iff.1 hfind)
  | some y =>
    have hylink : y.link = link := by simpa using List.find?_some hfind
    rw [List.inj_on_of_nodup_map hnodup (List.mem_of_find?_eq_some hfind) hx
      (hylink.trans hlink.symm)]

/-- The entries of `large` are those of `small`, in their order, and up to `spare` others. -/
structure Within (spare : Nat) (small large : List (Held α)) : Prop where
  sublist : small.Sublist large
  length_le : large.length ≤ small.length + spare

namespace Within

variable {spare : Nat} {small large : List (Held α)}

theorem filter (h : Within spare small large) (p : Held α → Bool) :
    Within spare (small.filter p) (large.filter p) := by
  refine ⟨h.sublist.filter p, ?_⟩
  -- what the filter takes away from the larger list is at least what it takes from the smaller
  have hsmall := small.length_eq_length_filter_add p
  have hlarge := large.length_eq_length_filter_add p
  have hrest := (h.sublist.filter (! p ·)).length_le
  have hle := h.length_le
  omega

theorem left (h : Within spare small large) (now : Nat) :
    Within spare (left now small) (left now large) :=
  h.filter _

theorem without (h : Within spare small large) (link : String) :
    Within spare (without link small) (without link large) :=
  h.filter _

theorem concat (h : Within spare small large) (x : Held α) :
    Within spare (small ++ [x]) (large ++ [x]) := by
  refine ⟨h.sublist.append (List.Sublist.refl _), ?_⟩
  have hle := h.length_le
  simp only [List.length_append, List.length_singleton]
  omega

/-- Sorting keeps the smaller list within the larger one, since no link is in it twice. -/
theorem sorted (h : Within spare small large) (hnodup : (large.map Held.link).Nodup) :
    Within spare (sorted small) (sorted large) := by
  obtain ⟨mid, hperm, hmid⟩ := List.exists_perm_sublist h.sublist (sorted_perm large).symm
  have hlarge := List.pairwise_map.1 (sorted_pairwise large)
  have hsmall := List.pairwise_map.1 (sorted_pairwise small)
  have heq : mid = Held.sorted small := by
    refine (hperm.trans (sorted_perm small).symm).eq_of_pairwise (fun x y hx hy hxy hyx => ?_)
      (hlarge.sublist hmid) hsmall
    have hxlarge : x ∈ large := (sorted_perm large).subset (hmid.subset hx)
    have hylarge : y ∈ large := h.sublist.subset ((sorted_perm small).subset hy)
    exact List.inj_on_of_nodup_map hnodup hxlarge hylarge (String.le_antisymm hxy hyx)
  refine ⟨heq ▸ hmid, ?_⟩
  rw [(sorted_perm small).length_eq, (sorted_perm large).length_eq]
  exact h.length_le

/-- What is found in the smaller list is found in the larger one. -/
theorem find?_eq_some (h : Within spare small large) (hnodup : (large.map Held.link).Nodup)
    {link : String} {x : Held α} (hx : small.find? (fun y => y.link = link) = some x) :
    large.find? (fun y => y.link = link) = some x := by
  have hsmall := hnodup.sublist (h.sublist.map Held.link)
  obtain ⟨hmem, hlink⟩ := (find?_link_eq_some_iff hsmall).1 hx
  exact (find?_link_eq_some_iff hnodup).2 ⟨h.sublist.subset hmem, hlink⟩

end Within

end Held

namespace Cache

variable {α : Type}

/-! ### Ideal caches -/

namespace Ideal

variable {n larger spare now : Nat} {small large : List (Held α)}

theorem read_eq_some (h : Held.Within spare small large)
    (hnodup : (large.map Held.link).Nodup) {link : String} {value : α}
    (hread : (read link small).1 = some value) : (read link large).1 = some value := by
  unfold read at hread ⊢
  cases hsmall : small.find? (fun y => y.link = link) with
  | none => simp [hsmall] at hread
  | some x => simpa [hsmall, h.find?_eq_some hnodup hsmall] using hread

theorem within_read (h : Held.Within spare small large)
    (hnodup : (large.map Held.link).Nodup) (link : String) :
    Held.Within spare (read link small).2 (read link large).2 := by
  unfold read
  cases hsmall : small.find? (fun y => y.link = link) with
  | some x =>
    rw [h.find?_eq_some hnodup hsmall]
    exact (h.without link).concat x
  | none =>
    cases hlarge : large.find? (fun y => y.link = link) with
    | none => exact h
    | some y =>
      -- only the larger one has the entry, which goes to the end there
      obtain ⟨hmem, rfl⟩ := (Held.find?_link_eq_some_iff hnodup).1 hlarge
      have hself := Held.without_eq_self (Held.find?_link_eq_none_iff.1 hsmall)
      refine ⟨?_, ?_⟩
      · rw [← hself]
        exact (h.without y.link).sublist.trans (List.sublist_append_left _ _)
      · have hlt := Held.length_without_lt hmem
        have hle := h.length_le
        simp only [List.length_append, List.length_singleton]
        omega

/-- What two caches keep when a link comes in: if the larger one gives up an entry, so does the
smaller one. -/
theorem within_kept (h : Held.Within (larger - n) small large) (hle : n ≤ larger)
    (hsmall : small.length ≤ n) (hlarge : large.length ≤ larger) (link : String) (x : Held α) :
    Held.Within (larger - n) (kept n link small ++ [x]) (kept larger link large ++ [x]) := by
  have hlen := h.length_le
  refine Held.Within.concat ?_ x
  by_cases hin : link ∈ small.map Held.link
  · have hinLarge : link ∈ large.map Held.link := (h.sublist.map _).subset hin
    rw [kept, kept, if_pos hin, if_pos hinLarge]
    exact h.without link
  · rw [kept, if_neg hin]
    by_cases hinLarge : link ∈ large.map Held.link
    · -- the larger one replaces the entry, so it keeps fewer, and the smaller one has room or not
      obtain ⟨y, hy, rfl⟩ := List.mem_map.1 hinLarge
      have hlt := Held.length_without_lt hy
      have hsub : small.Sublist (Held.without y.link large) :=
        Held.without_eq_self hin ▸ (h.without y.link).sublist
      rw [kept, if_pos hinLarge]
      split
      · exact ⟨hsub, by omega⟩
      · refine ⟨(List.tail_sublist small).trans hsub, ?_⟩
        rw [List.length_tail]
        omega
    · rw [kept, if_neg hinLarge]
      split <;> split
      · exact h
      · -- a full larger cache over a smaller one with room would hold too many others
        omega
      · refine ⟨(List.tail_sublist small).trans h.sublist, ?_⟩
        rw [List.length_tail]
        omega
      · refine ⟨h.sublist.tail, ?_⟩
        rw [List.length_tail, List.length_tail]
        omega

/-- One request keeps what the smaller cache holds within what the larger one does. -/
theorem within_serve [HasId α] (h : Held.Within (larger - n) small large) (hle : n ≤ larger)
    (hsmall : small.length ≤ n) (hlarge : large.length ≤ larger)
    (hnodup : (large.map Held.link).Nodup) (now : Nat) (r : Request α) :
    Held.Within (larger - n) (serve n now small r).2 (serve larger now large r).2 := by
  cases r with
  | put link value ttl => exact within_kept h hle hsmall hlarge link _
  | get link => exact within_read h hnodup link
  | resolveId link => exact within_read h hnodup link
  | getAll => exact h.sorted hnodup
  | len => exact h
  | isEmpty => exact h

end Ideal

/-! ### Caches -/

/-- Of what has not expired at `now`, the cache `c` of capacity `n` holds part of what `d` of
capacity `larger` holds, in the same order, and `d` at most `larger - n` others. -/
def Nested (n larger now : Nat) (c d : Cache α) : Prop :=
  ∃ small large, Holds n c small ∧ Holds larger d large ∧
    Held.Within (larger - n) (Held.left now small) (Held.left now large)

namespace Nested

variable {n larger now : Nat} {c d : Cache α}

theorem later {time : Nat} (h : Nested n larger now c d) (hle : now ≤ time) :
    Nested n larger time c d := by
  obtain ⟨small, large, hsmall, hlarge, hwithin⟩ := h
  refine ⟨small, large, hsmall, hlarge, ?_⟩
  rw [← Held.left_left hle small, ← Held.left_left hle large]
  exact hwithin.left time

theorem nodup_left {hs : List (Held α)} (h : Holds n c hs) :
    ((Held.left now hs).map Held.link).Nodup :=
  h.nodup_links.sublist ((Held.left_sublist now hs).map _)

theorem seen (h : Nested n larger now c d) {link : String} {x : α × Nat}
    (hseen : c.seen now link = some x) : d.seen now link = some x := by
  obtain ⟨small, large, hsmall, hlarge, hwithin⟩ := h
  exact hlarge.seen_eq_some_iff.2 (hwithin.sublist.subset (hsmall.seen_eq_some_iff.1 hseen))

theorem get (h : Nested n larger now c d) {link : String} {value : α}
    (hget : (c.get link now).1 = some value) : (d.get link now).1 = some value := by
  obtain ⟨small, large, hsmall, hlarge, hwithin⟩ := h
  rw [(Follows.get ⟨small, hsmall, rfl⟩ link).1] at hget
  rw [(Follows.get ⟨large, hlarge, rfl⟩ link).1]
  exact Ideal.read_eq_some hwithin (nodup_left hlarge) hget

theorem listing (h : Nested n larger now c d) :
    (c.listing now).1.Sublist (d.listing now).1 := by
  obtain ⟨small, large, hsmall, hlarge, hwithin⟩ := h
  rw [(Follows.listing ⟨small, hsmall, rfl⟩).1, (Follows.listing ⟨large, hlarge, rfl⟩).1]
  exact (hwithin.sorted (nodup_left hlarge)).sublist.map _

variable [HasId α]

theorem serve (h : Nested n larger now c d) (hle : n ≤ larger) (r : Request α)
    (hdone : breaksOff (now, r) = false) :
    Nested n larger now (c.serve now r).2 (d.serve now r).2 := by
  obtain ⟨small, large, hsmall, hlarge, hwithin⟩ := h
  obtain ⟨small', hsmall', hleft⟩ := (Follows.serve ⟨small, hsmall, rfl⟩ r hdone).2
  obtain ⟨large', hlarge', hleftLarge⟩ := (Follows.serve ⟨large, hlarge, rfl⟩ r hdone).2
  refine ⟨small', large', hsmall', hlarge', ?_⟩
  rw [hleft, hleftLarge]
  refine (Ideal.within_serve hwithin hle ?_ ?_ (nodup_left hlarge) now r).left now
  · exact (Held.left_sublist now small).length_le.trans hsmall.length_le
  · exact (Held.left_sublist now large).length_le.trans hlarge.length_le

/-- Requests at times that do not go back keep the smaller cache nested in the larger one, as long
as none breaks off. -/
theorem after (hle : n ≤ larger) : ∀ (calls : List (Nat × Request α)) {start : Nat}
    {c d : Cache α}, Nested n larger start c d → (∀ call ∈ calls, start ≤ call.1) →
    (calls.map Prod.fst).Pairwise (· ≤ ·) → (∀ call ∈ calls, breaksOff call = false) →
    start ≤ now → (∀ call ∈ calls, call.1 ≤ now) →
    Nested n larger now (c.after calls) (d.after calls)
  | [], _, _, _, h, _, _, _, hnow, _ => h.later hnow
  | (time, r) :: calls, start, c, d, h, hstart, hordered, hdone, hnow, hlast => by
    obtain ⟨hfirst, hrest⟩ := List.pairwise_cons.1 hordered
    have hnext := (h.later (hstart _ List.mem_cons_self)).serve hle r
      (hdone _ List.mem_cons_self)
    exact after hle calls hnext (fun call hcall => hfirst _ (List.mem_map_of_mem hcall)) hrest
      (fun call hcall => hdone call (List.mem_cons_of_mem _ hcall))
      (hlast _ List.mem_cons_self) fun call hcall => hlast _ (List.mem_cons_of_mem _ hcall)

end Nested

/-- CORRECT: more capacity never loses an entry, as long as no put breaks off. After any requests at
times that do not go back, what can be seen in a cache can be seen in one of a larger capacity that
was asked the same, with the same value and the same expiry, so that no lookup hits in the smaller
one alone or answers something else there, and a listing has all that the smaller one lists. -/
theorem seen_of_smaller_capacity [HasId α] {small large : Nat} (hle : small ≤ large)
    (calls : List (Nat × Request α)) (hordered : (calls.map Prod.fst).Pairwise (· ≤ ·))
    (hdone : ∀ call ∈ calls, breaksOff call = false) {now : Nat}
    (hnow : ∀ call ∈ calls, call.1 ≤ now) :
    let c : Cache α := (withCapacity small).after calls
    let d : Cache α := (withCapacity large).after calls
    (∀ link x, c.seen now link = some x → d.seen now link = some x) ∧
      (∀ link value, (c.get link now).1 = some value → (d.get link now).1 = some value) ∧
      (∀ link id, (c.resolveId link now).1 = some id → (d.resolveId link now).1 = some id) ∧
      (c.listing now).1.Sublist (d.listing now).1 := by
  intro c d
  have hempty : Held.Within (max large 1 - max small 1) ([] : List (Held α)) [] :=
    ⟨List.Sublist.refl _, Nat.zero_le _⟩
  have hnested : Nested (max small 1) (max large 1) now c d :=
    Nested.after (by omega) calls
      ⟨[], [], holds_withCapacity small, holds_withCapacity large, hempty⟩
      (fun _ _ => Nat.zero_le _) hordered hdone (Nat.zero_le _) hnow
  refine ⟨fun link x => hnested.seen, fun link value => hnested.get, fun link id hid => ?_,
    hnested.listing⟩
  obtain ⟨value, hvalue, rfl⟩ := Option.map_eq_some_iff.1 hid
  exact Option.map_eq_some_iff.2 ⟨value, hnested.get hvalue, rfl⟩

attribute [local instance] textHasId

/-- Three links come in and the first is looked up before a fourth. With room for two it is gone
by then; with room for three the lookup saves it. -/
def threeLinks : List (Nat × Request String) :=
  [(0, .put "a" "1" 9), (1, .put "b" "2" 9), (2, .put "c" "3" 9), (3, .get "a"),
    (4, .put "d" "4" 2)]

/-- The first entry of `x` would expire when the clock has run out, so it is listed to no purpose.
With room for one, its number is soon used up; with room for three, it is in line before the second
entry of `x`, which goes in its stead. -/
def listedTwice : List (Nat × Request String) :=
  [(0, .put "x" "1" Clock.range), (0, .put "b" "2" 9), (0, .put "c" "3" 9), (0, .put "x" "4" 9),
    (0, .put "d" "5" 9)]

theorem seen_listedTwice :
    (((withCapacity 2).after threeLinks).seen 5 "c" = some ("3", 11) ∧
        ((withCapacity 3).after threeLinks).seen 5 "c" = some ("3", 11) ∧
        ((withCapacity 2).after threeLinks).seen 5 "a" = none ∧
        ((withCapacity 3).after threeLinks).seen 5 "a" = some ("1", 9)) ∧
      ((withCapacity 1).after listedTwice).seen 0 "x" = some ("4", 9) ∧
        (((withCapacity 1).after listedTwice).get "x" 0).1 = some "4" ∧
        ((withCapacity 3).after listedTwice).seen 0 "x" = none ∧
        (((withCapacity 3).after listedTwice).get "x" 0).1 = none := by
  have hsmall : ((withCapacity 2).after threeLinks).seen 5 "c" = some ("3", 11) := by decide
  have hordered : (threeLinks.map Prod.fst).Pairwise (· ≤ ·) := by decide
  have hnow : ∀ call ∈ threeLinks, call.1 ≤ 5 := by decide
  have hdone : ∀ call ∈ threeLinks, breaksOff call = false := by decide
  have hlarge := (seen_of_smaller_capacity (by decide : 2 ≤ 3) threeLinks hordered hdone hnow).1
    "c" _ hsmall
  exact ⟨⟨hsmall, hlarge, by decide, by decide⟩, by decide, by decide, by decide, by decide⟩

end Cache

end CloudInventory
