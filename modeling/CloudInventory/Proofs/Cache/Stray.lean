import CloudInventory.Proofs.Cache.Pairing
import CloudInventory.Proofs.Cache.Shown

/-!
The numbers that stray in a cache: they are listed, but are not those of stored entries. Only a put
that breaks off leaves one. A listing leaves them where they are, in front of all that it touches;
so it is the link of the first of them that goes when a new link needs room, and only without any
the smallest of the links that are stored.
-/

namespace CloudInventory.Cache

variable {α : Type} {k n now : Nat} {c : Cache α} {link : String} {e : CacheEntry α}

/-- What is listed without being the number of a stored entry. -/
def stray (c : Cache α) : List (Nat × String) := c.recency.filter fun r => r ∉ Tracks.listings c

/-- But for a new link, a cache stores what another one does without one link. -/
def Loses (c c' : Cache α) (new lost : String) : Prop :=
  ∀ link, link ≠ new → c'.stored link = if link = lost then none else c.stored link

namespace Tracks

/-! ### Removing and touching -/

theorem mem_listings_erase (h : c.entries.get? link = some e) {r : Nat × String} :
    r ∈ listings (c.remove link) ↔ r.2 ≠ link ∧ r ∈ listings c := by
  rw [remove_of_some h, mem_listings, mem_listings]
  simp only [Dict.get?_erase]
  by_cases hlink : r.2 = link <;> simp [hlink]

theorem mem_listings_store {value : α} {expiresAt : Nat} {r : Nat × String} :
    r ∈ listings (c.store link value expiresAt) ↔
      r = (c.clock + 1, link) ∨ r.2 ≠ link ∧ r ∈ listings c := by
  obtain ⟨number, other⟩ := r
  rw [mem_listings, mem_listings, Cache.store]
  simp only [Dict.get?_insert, Prod.mk.injEq]
  by_cases hlink : other = link <;> simp [hlink, eq_comm]

/-- What a link is listed with is the number of its entry, or strays. -/
theorem mem_listings_iff (h : c.entries.get? link = some e) {number : Nat} :
    (number, link) ∈ listings c ↔ number = e.touched := by
  rw [mem_listings, h]
  simp [eq_comm]

/-- Only the entry's own number goes with it. -/
theorem ne_touched_iff (h : Tracks k n c) (he : c.entries.get? link = some e) {r : Nat × String}
    (hr : r ∈ c.recency) : r.1 ≠ e.touched ↔ r.2 = link → r ∉ listings c := by
  obtain ⟨number, other⟩ := r
  constructor
  · rintro hne rfl
    rwa [mem_listings_iff he]
  · rintro hstray rfl
    obtain rfl : other = link := congrArg Prod.snd (h.eq_of_number hr (h.listed he) rfl)
    exact hstray rfl ((mem_listings_iff he).2 rfl)

theorem stray_remove (h : Tracks k n c) (link : String) : (c.remove link).stray = c.stray := by
  cases he : c.entries.get? link with
  | none => rw [remove_of_none he]
  | some e =>
    have hrecency : (c.remove link).recency = c.recency.filter fun r => r.1 ≠ e.touched := by
      rw [remove_of_some he]
    rw [stray, stray, hrecency, List.filter_filter]
    refine List.filter_congr fun r hr => ?_
    rw [Bool.eq_iff_iff, Bool.and_eq_true, decide_eq_true_iff, decide_eq_true_iff,
      decide_eq_true_iff, mem_listings_erase he, h.ne_touched_iff he hr]
    by_cases hlink : r.2 = link <;> simp [hlink]

theorem stray_removeAll : ∀ (links : List String) {c : Cache α}, Tracks k n c →
    (links.foldl Cache.remove c).stray = c.stray
  | [], _, _ => rfl
  | link :: links, c, h => by
    rw [List.foldl_cons, stray_removeAll links (h.remove link), h.stray_remove]

theorem stray_purge (h : Tracks k n c) (now : Nat) : (c.purge now).stray = c.stray :=
  stray_removeAll _ h

/-- Without loose numbers there are no strays. -/
theorem stray_eq_nil (h : Tracks 0 n c) : c.stray = [] := by
  refine List.filter_eq_nil_iff.2 fun r hr => ?_
  rw [decide_eq_true_iff, not_not, mem_listings]
  exact h.paired.listed_iff.1 hr

/-! ### Listing -/

/-- Links that are touched in turn go to the end of the list with the next numbers. -/
theorem recency_touchAll : ∀ (links : List String) {c : Cache α}, Tracks k n c → links.Nodup →
    (∀ link ∈ links, c.stored link ≠ none) →
    (c.touchAll links).2.recency =
      c.recency.filter (fun r => ¬ (r ∈ listings c ∧ r.2 ∈ links)) ++
        (links.zipIdx (c.clock + 1)).map Prod.swap
  | [], c, _, _, _ => by simp [Cache.touchAll]
  | link :: links, c, h, hnodup, hall => by
    obtain ⟨hlink, hnodup⟩ := List.nodup_cons.1 hnodup
    obtain ⟨e, he⟩ : ∃ e, c.entries.get? link = some e :=
      Option.ne_none_iff_exists'.1 fun hnone => hall link List.mem_cons_self (by
        rw [stored, hnone]
        rfl)
    have htouch : (c.touch link).2 = (c.remove link).store link e.value e.expiresAt := by
      rw [touch_eq_store he]
    have hrest := recency_touchAll links (h.touch link) hnodup fun other hother => by
      rw [stored_touch]
      exact hall other (List.mem_cons_of_mem _ hother)
    have hclock : (c.touch link).2.clock = c.clock + 1 := c.clock_touch link
    have hrecency : (c.touch link).2.recency =
        (c.recency.filter fun r => r.1 ≠ e.touched) ++ [(c.clock + 1, link)] := by
      rw [htouch, Cache.store, remove_of_some he]
    have hlistings {r : Nat × String} : r ∈ listings (c.touch link).2 ↔
        r = (c.clock + 1, link) ∨ r.2 ≠ link ∧ r ∈ listings c := by
      rw [htouch, mem_listings_store, mem_listings_erase he, clock_remove, ← and_assoc, and_self]
    rw [touchAll_cons, hrest, hclock, hrecency, List.filter_append, List.filter_filter,
      List.zipIdx_cons, List.map_cons, List.append_assoc]
    congr 1
    · -- the number of the link that is touched first is gone, and the others are where they were
      refine List.filter_congr fun r hr => ?_
      rw [Bool.eq_iff_iff, Bool.and_eq_true, decide_eq_true_iff, decide_eq_true_iff,
        decide_eq_true_iff, h.ne_touched_iff he hr, hlistings, List.mem_cons]
      by_cases hsame : r.2 = link
      · simp [hsame, hlink]
      · have hne : r ≠ (c.clock + 1, link) := fun heq => hsame (congrArg Prod.snd heq)
        simp [hsame, hne]
    · simp [hlink]

end Tracks

section Shown

variable {live : List (Held α)}

theorem stored_listing (c : Cache α) (now : Nat) : (c.listing now).2.stored = c.seen now :=
  (touchAll_stored _ (c.purge now)).2.trans (c.stored_purge now)

/-- After a listing all that is shown is stored, and nothing else. -/
theorem Shows.keys_listing (h : c.Shows now live) :
    (c.listing now).2.entries.keys = live.map Held.link := by
  rw [← h.keys_purge]
  exact keys_congr (touchAll_stored _ (c.purge now)).2

/-- A listing leaves the strays in front, and after them all that is shown with the next numbers in
the order of the links. -/
theorem Shows.recency_listing (h : c.Shows now live) (htracks : Tracks k n c) :
    (c.listing now).2.recency =
      c.stray ++ ((live.map Held.link).zipIdx (c.clock + 1)).map Prod.swap := by
  have hpurge := htracks.purge now
  rw [listing, Tracks.recency_touchAll _ hpurge (Dict.nodup_keys _) fun link => mem_keys_iff.1,
    clock_purge, h.keys_purge, ← htracks.stray_purge now]
  congr 1
  refine List.filter_congr fun r _ => ?_
  rw [Bool.eq_iff_iff, decide_eq_true_iff, decide_eq_true_iff]
  refine not_congr (and_iff_left_of_imp fun hr => ?_)
  obtain ⟨e, he, -⟩ := Tracks.mem_listings.1 hr
  rw [← h.keys_purge, Dict.mem_keys_iff, he]
  rfl

/-! ### The next one to go -/

/-- The first link in the list goes when another one is evicted. -/
theorem stored_evictOldest {first : String} (h : (c.recency.map Prod.snd).head? = some first)
    (link : String) : c.evictOldest.stored link = if link = first then none else c.stored link := by
  cases hrecency : c.recency with
  | nil =>
    rw [hrecency] at h
    cases h
  | cons r rest =>
    obtain ⟨number, other⟩ := r
    rw [hrecency] at h
    obtain rfl : other = first := Option.some.inj h
    rw [evictOldest_of_cons hrecency, stored, Dict.get?_erase]
    split <;> rfl

/-- A new link that finds a full cache without expired entries drives out the first one listed. -/
theorem loses_put (hnew : c.stored link = none) (hfull : c.capacity ≤ c.entries.size)
    (hlive : c.expired now = []) {first : String}
    (hfirst : (c.recency.map Prod.snd).head? = some first) (value : α) (ttl : Nat) :
    Loses c (c.put link value ttl now).2 link first := by
  intro other hother
  rw [stored_put, if_neg hother, ← stored_evictOldest hfirst]
  obtain ⟨e, he, -⟩ | ⟨-, ⟨hroom, -⟩ | ⟨-, ⟨-, hroomFor⟩ | ⟨hexpired, -⟩⟩⟩ :=
    c.roomFor_cases link now
  · rw [stored, he] at hnew
    cases hnew
  · exact absurd hroom (Nat.not_lt.2 hfull)
  · rw [hroomFor]
  · exact absurd hlive hexpired

/-- What is all shown later has not expired. -/
theorem Shows.expired_eq_nil (h : c.Shows now live) (hall : c.stored = c.seen now) {later : Nat}
    (hlater : ∀ x ∈ live, later < x.expiresAt) : c.expired later = [] := by
  refine List.map_eq_nil_iff.2 (List.filter_eq_nil_iff.2 ?_)
  rintro ⟨link, e⟩ he
  have hseen : c.seen now link = some (e.value, e.expiresAt) := by
    rw [← hall, stored, Dict.get?_eq_some_iff.2 he]
    rfl
  have hlt := hlater _ ((h.mem_iff _ _ _).2 hseen)
  simpa [isLive] using hlt

/-- After a listing, a new link that finds the cache full drives out the link of the first stray, or
else the smallest one shown. -/
theorem Shows.loses_put (h : c.Shows now live) (htracks : Tracks k n c)
    (hnew : link ∉ live.map Held.link) (hfull : n ≤ live.length) {later : Nat}
    (hlater : ∀ x ∈ live, later < x.expiresAt) {first : String}
    (hfirst : (c.stray.map Prod.snd ++ live.map Held.link).head? = some first) (value : α)
    (ttl : Nat) :
    Loses (c.listing now).2 ((c.listing now).2.put link value ttl later).2 link first := by
  have hshows : (c.listing now).2.Shows now live := h.congr (c.seen_listing now)
  have hall : (c.listing now).2.stored = (c.listing now).2.seen now := by
    rw [stored_listing, seen_listing]
  have hsize : (c.listing now).2.entries.size = live.length := by
    rw [← Dict.length_keys, h.keys_listing, List.length_map]
  refine Cache.loses_put ?_ ?_ (hshows.expired_eq_nil hall hlater) ?_ value ttl
  · rw [hall]
    exact not_not.1 (mt hshows.mem_links_iff.2 hnew)
  · rw [hsize, (htracks.listing now).capacity]
    exact hfull
  · rw [h.recency_listing htracks, List.map_append, List.map_map]
    have hlinks : ((live.map Held.link).zipIdx (c.clock + 1)).map (Prod.snd ∘ Prod.swap) =
        live.map Held.link := List.zipIdx_map_fst _ _
    rw [hlinks]
    exact hfirst

end Shown

end CloudInventory.Cache
