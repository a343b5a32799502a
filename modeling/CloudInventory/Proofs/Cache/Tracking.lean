import CloudInventory.Proofs.Cache.Seen
import Mathlib.Data.List.Perm.Subperm

/-!
What a cache keeps when numbers are listed to no purpose. `Tracks k n c` says that `c` has capacity
`n`, that each of its entries is listed with its number, and that at most `k` other numbers are
listed. Every operation keeps that up; only a put that breaks off takes `k` up by one. How many
entries there can be follows, since an entry comes in only where something listed has gone or where
there is room.
-/

namespace CloudInventory

/-! ### Sizes of dictionaries -/

namespace Dict

variable {α : Type} {d : Dict α} {k : String} {v : α}

theorem length_keys (d : Dict α) : d.keys.length = d.size := List.length_map _

theorem size_insert_of_none (h : d.get? k = none) (v : α) : (d.insert k v).size = d.size + 1 := by
  have hnew : k ∉ d.keys := by simp [mem_keys_iff, h]
  have hperm : (d.insert k v).keys.Perm (k :: d.keys) := by
    refine (List.perm_ext_iff_of_nodup (nodup_keys _)
      (List.nodup_cons.2 ⟨hnew, nodup_keys d⟩)).2 fun j => ?_
    rw [List.mem_cons, mem_keys_iff, mem_keys_iff, get?_insert]
    by_cases hj : j = k <;> simp [hj]
  rw [← length_keys, hperm.length_eq, List.length_cons, length_keys]

theorem size_erase_of_some (h : d.get? k = some v) : (d.erase k).size + 1 = d.size := by
  have hgone : k ∉ (d.erase k).keys := by simp [mem_keys_iff, get?_erase]
  have hperm : (k :: (d.erase k).keys).Perm d.keys := by
    refine (List.perm_ext_iff_of_nodup (List.nodup_cons.2 ⟨hgone, nodup_keys _⟩)
      (nodup_keys d)).2 fun j => ?_
    rw [List.mem_cons, mem_keys_iff, mem_keys_iff, get?_erase]
    by_cases hj : j = k <;> simp [hj, h]
  rw [← length_keys, ← length_keys, ← hperm.length_eq, List.length_cons]

theorem erase_eq_self (h : d.get? k = none) : d.erase k = d := by
  refine ext_get? fun j => ?_
  rw [get?_erase]
  by_cases hj : j = k
  · rw [if_pos hj, hj, h]
  · rw [if_neg hj]

end Dict

namespace Cache

variable {α : Type}

/-- Every entry of a cache of capacity `n` is listed with its number, and up to `k` other numbers
are. -/
structure Tracks (k n : Nat) (c : Cache α) : Prop where
  capacity : c.capacity = n
  listed : ∀ {link e}, c.entries.get? link = some e → (e.touched, link) ∈ c.recency
  ascending : c.recency.Pairwise fun r s => r.1 < s.1
  le_clock : ∀ r ∈ c.recency, r.1 ≤ c.clock
  loose_le : c.recency.length ≤ c.entries.size + k
  fits : c.recency.length ≤ n + k

theorem tracks_withCapacity (capacity : Nat) :
    Tracks 0 (max capacity 1) (withCapacity capacity : Cache α) where
  capacity := rfl
  listed := fun h => by cases h
  ascending := .nil
  le_clock := fun _ h => absurd h List.not_mem_nil
  loose_le := Nat.zero_le _
  fits := Nat.zero_le _

/-! ### Operations -/

/-- What making room for a link does: remove its entry, or nothing, or evict or purge others. -/
theorem roomFor_cases (c : Cache α) (link : String) (now : Nat) :
    (∃ e, c.entries.get? link = some e ∧ c.roomFor link now = c.remove link) ∨
      c.entries.get? link = none ∧
        (c.entries.size < c.capacity ∧ c.roomFor link now = c ∨
          c.capacity ≤ c.entries.size ∧
            (c.expired now = [] ∧ c.roomFor link now = c.evictOldest ∨
              c.expired now ≠ [] ∧ c.roomFor link now = c.purge now)) := by
  unfold roomFor makeRoom
  cases c.entries.get? link with
  | some e => exact .inl ⟨e, rfl, if_pos rfl⟩
  | none =>
    refine .inr ⟨rfl, ?_⟩
    by_cases hroom : c.entries.size < c.capacity
    · exact .inl ⟨hroom, by simp [hroom]⟩
    · refine .inr ⟨Nat.le_of_not_lt hroom, ?_⟩
      by_cases hnone : c.expired now = []
      · exact .inl ⟨hnone, by simp [hroom, hnone]⟩
      · exact .inr ⟨hnone, by simp [hroom, hnone]⟩

theorem get?_remove_self (c : Cache α) (link : String) :
    (c.remove link).entries.get? link = none := by
  cases he : c.entries.get? link with
  | none => rwa [remove_of_none he]
  | some e => rw [remove_of_some he, Dict.get?_erase, if_pos rfl]

/-- A link for which room has been made is not stored. -/
theorem get?_roomFor (c : Cache α) (link : String) (now : Nat) :
    (c.roomFor link now).entries.get? link = none := by
  obtain ⟨e, -, hroomFor⟩ | ⟨hnone, ⟨-, hroomFor⟩ | ⟨-, ⟨-, hroomFor⟩ | ⟨-, hroomFor⟩⟩⟩ :=
    c.roomFor_cases link now <;> rw [hroomFor]
  · exact c.get?_remove_self link
  · exact hnone
  · cases hrecency : c.recency with
    | nil => rwa [evictOldest_of_nil hrecency]
    | cons r rest => rw [evictOldest_of_cons hrecency, Dict.get?_erase, hnone, ite_self]
  · have hstored : (c.purge now).stored link = none := by
      rw [stored_purge, seen, stored, hnone]
      rfl
    exact Option.map_eq_none_iff.1 hstored

theorem touchAll_cons (c : Cache α) (link : String) (links : List String) :
    (c.touchAll (link :: links)).2 = ((c.touch link).2.touchAll links).2 := by
  rw [touchAll]
  rcases c.touch link with ⟨_ | _, c'⟩ <;> rfl

namespace Tracks

variable {k n : Nat} {c : Cache α} {link : String} {e : CacheEntry α}

/-! ### What is listed -/

theorem nodup_numbers (h : Tracks k n c) : (c.recency.map Prod.fst).Nodup :=
  List.pairwise_map.2 (h.ascending.imp Nat.ne_of_lt)

/-- A number is listed with one link. -/
theorem eq_of_number (h : Tracks k n c) {r s : Nat × String} (hr : r ∈ c.recency)
    (hs : s ∈ c.recency) (hnumber : r.1 = s.1) : r = s :=
  List.inj_on_of_nodup_map h.nodup_numbers hr hs hnumber

/-- The stored entries as they are listed. -/
def listings (c : Cache α) : List (Nat × String) :=
  c.entries.toList.map fun p => (p.2.touched, p.1)

theorem mem_listings {r : Nat × String} :
    r ∈ listings c ↔ ∃ e, c.entries.get? r.2 = some e ∧ e.touched = r.1 := by
  simp only [listings, List.mem_map, Dict.get?_eq_some_iff]
  constructor
  · rintro ⟨⟨link, e⟩, he, rfl⟩
    exact ⟨e, he, rfl⟩
  · rintro ⟨e, he, htouched⟩
    exact ⟨(r.2, e), he, by rw [htouched]⟩

/-- The list of numbers is that of the stored entries with some more, in some order. -/
theorem listings_subperm (h : Tracks k n c) : (listings c).Subperm c.recency := by
  have hnodup : (listings c).Nodup := by
    refine List.Nodup.of_map Prod.snd ?_
    rw [listings, List.map_map]
    exact c.entries.nodup_keys
  refine List.subperm_of_subset hnodup fun r hr => ?_
  obtain ⟨e, he, htouched⟩ := mem_listings.1 hr
  have hlisted := h.listed he
  rwa [htouched] at hlisted

/-- There are no more entries than numbers. -/
theorem size_le_length (h : Tracks k n c) : c.entries.size ≤ c.recency.length := by
  have hle := h.listings_subperm.length_le
  rwa [listings, List.length_map] at hle

theorem size_le (h : Tracks k n c) : c.entries.size ≤ n + k :=
  Nat.le_trans h.size_le_length h.fits

/-! ### Less -/

/-- Removing a stored link takes one entry from either part. -/
theorem length_remove (h : Tracks k n c) (he : c.entries.get? link = some e) :
    (c.remove link).recency.length + 1 = c.recency.length ∧
      (c.remove link).entries.size + 1 = c.entries.size := by
  have hmem := h.listed he
  -- the number is listed once, so the filter takes this one place and no other
  have hfilter : c.recency.filter (fun r => r.1 ≠ e.touched) =
      c.recency.erase (e.touched, link) := by
    rw [h.nodup_numbers.of_map.erase_eq_filter]
    refine List.filter_congr fun r hr => ?_
    rw [Bool.eq_iff_iff, decide_eq_true_iff, bne_iff_ne]
    exact not_congr ⟨fun hnumber => h.eq_of_number hr hmem hnumber, congrArg Prod.fst⟩
  have hpos := List.length_pos_of_mem hmem
  rw [remove_of_some he]
  refine ⟨?_, Dict.size_erase_of_some he⟩
  rw [hfilter, List.length_erase_of_mem hmem]
  omega

theorem remove (h : Tracks k n c) (link : String) : Tracks k n (c.remove link) := by
  cases he : c.entries.get? link with
  | none => rwa [remove_of_none he]
  | some e =>
    obtain ⟨hlength, hsize⟩ := h.length_remove he
    have hloose := h.loose_le
    have hfits := h.fits
    rw [remove_of_some he] at hlength hsize ⊢
    refine ⟨h.capacity, ?_, h.ascending.filter _, ?_, by omega, by omega⟩
    · intro other f hf
      rw [Dict.get?_erase] at hf
      split at hf
      · cases hf
      case isFalse hother =>
        refine List.mem_filter.2 ⟨h.listed hf, decide_eq_true fun htouched => hother ?_⟩
        exact congrArg Prod.snd (h.eq_of_number (h.listed hf) (h.listed he) htouched)
    · exact fun r hr => h.le_clock r (List.mem_of_mem_filter hr)

theorem removeAll : ∀ (links : List String) {c : Cache α}, Tracks k n c →
    Tracks k n (links.foldl Cache.remove c) ∧
      (links.foldl Cache.remove c).recency.length ≤ c.recency.length
  | [], _, h => ⟨h, Nat.le_refl _⟩
  | link :: links, c, h => by
    obtain ⟨htracks, hle⟩ := removeAll links (h.remove link)
    refine ⟨htracks, Nat.le_trans hle ?_⟩
    cases he : c.entries.get? link with
    | none => rw [remove_of_none he]
    | some e => exact Nat.le_of_succ_le (h.length_remove he).1.le

theorem purge (h : Tracks k n c) (now : Nat) : Tracks k n (c.purge now) :=
  (removeAll _ h).1

/-- A purge with something to purge leaves less. -/
theorem length_purge_lt (h : Tracks k n c) {now : Nat} (hsome : c.expired now ≠ []) :
    (c.purge now).recency.length < c.recency.length := by
  obtain ⟨link, links, hexpired⟩ := List.exists_cons_of_ne_nil hsome
  have hmem : link ∈ c.expired now := hexpired ▸ List.mem_cons_self
  obtain ⟨⟨link, e⟩, he, rfl⟩ := List.mem_map.1 hmem
  have hstored : c.entries.get? link = some e :=
    Dict.get?_eq_some_iff.2 (List.mem_of_mem_filter he)
  rw [Cache.purge, hexpired, List.foldl_cons]
  have hrest := (removeAll links (h.remove link)).2
  have hfirst := (h.length_remove hstored).1
  dsimp only at hrest ⊢
  omega

theorem evictOldest (h : Tracks k n c) : Tracks k n c.evictOldest := by
  cases hrecency : c.recency with
  | nil => rwa [evictOldest_of_nil hrecency]
  | cons r rest =>
    obtain ⟨number, link⟩ := r
    have hloose := h.loose_le
    have hfits := h.fits
    have hascending := h.ascending
    rw [hrecency] at hloose hfits hascending
    rw [List.length_cons] at hloose hfits
    -- the number that goes may be one without an entry, and then none goes with it
    have hsize : c.entries.size ≤ (c.entries.erase link).size + 1 := by
      cases he : c.entries.get? link with
      | none => rw [Dict.erase_eq_self he]; omega
      | some e => exact (Dict.size_erase_of_some he).ge
    rw [evictOldest_of_cons hrecency]
    refine ⟨h.capacity, ?_, hascending.of_cons, ?_, by dsimp only; omega, by dsimp only; omega⟩
    · intro other f hf
      rw [Dict.get?_erase] at hf
      split at hf
      · cases hf
      case isFalse hother =>
        have hlisted := h.listed hf
        rw [hrecency] at hlisted
        exact (List.mem_cons.1 hlisted).resolve_left fun heq => hother (congrArg Prod.snd heq)
    · exact fun r hr => h.le_clock r (hrecency ▸ List.mem_cons_of_mem _ hr)

theorem roomFor (h : Tracks k n c) (link : String) (now : Nat) :
    Tracks k n (c.roomFor link now) := by
  obtain ⟨e, -, hroomFor⟩ | ⟨-, ⟨-, hroomFor⟩ | ⟨-, ⟨-, hroomFor⟩ | ⟨-, hroomFor⟩⟩⟩ :=
    c.roomFor_cases link now <;> rw [hroomFor]
  · exact h.remove link
  · exact h
  · exact h.evictOldest
  · exact h.purge now

/-- Making room for a link leaves less listed than the most there can be. -/
theorem length_roomFor_lt (h : Tracks k n c) (link : String) (now : Nat) :
    (c.roomFor link now).recency.length < n + k := by
  have hn : 0 < n := h.capacity ▸ c.capacity_pos
  have hfits := h.fits
  obtain ⟨e, he, hroomFor⟩ | ⟨-, ⟨hroom, hroomFor⟩ | ⟨-, ⟨-, hroomFor⟩ | ⟨hsome, hroomFor⟩⟩⟩ :=
    c.roomFor_cases link now <;> rw [hroomFor]
  · have hlength := (h.length_remove he).1
    omega
  · have hloose := h.loose_le
    rw [h.capacity] at hroom
    omega
  · cases hrecency : c.recency with
    | nil =>
      rw [evictOldest_of_nil hrecency, hrecency, List.length_nil]
      omega
    | cons r rest =>
      rw [hrecency, List.length_cons] at hfits
      rw [evictOldest_of_cons hrecency]
      exact hfits
  · exact Nat.lt_of_lt_of_le (h.length_purge_lt hsome) hfits

/-! ### More -/

/-- A number more is listed, and whether it will have an entry is open. -/
theorem number (h : Tracks k n c) (link : String) : Tracks (k + 1) n (c.number link) where
  capacity := h.capacity
  listed := fun he => List.mem_append_left _ (h.listed he)
  ascending := by
    refine List.pairwise_append.2 ⟨h.ascending, List.pairwise_singleton _ _, fun r hr s hs => ?_⟩
    rw [List.mem_singleton.1 hs]
    exact Nat.lt_succ_of_le (h.le_clock r hr)
  le_clock := by
    intro r hr
    rcases List.mem_append.1 hr with hr | hr
    · exact Nat.le_succ_of_le (h.le_clock r hr)
    · rw [List.mem_singleton.1 hr]
      exact Nat.le_refl _
  loose_le := by
    have hloose := h.loose_le
    simp only [Cache.number, List.length_append, List.length_singleton]
    omega
  fits := by
    have hfits := h.fits
    simp only [Cache.number, List.length_append, List.length_singleton]
    omega

/-- With its entry the number does not count. -/
theorem store (h : Tracks k n c) (hlink : c.entries.get? link = none)
    (hroom : c.recency.length < n + k) (value : α) (expiresAt : Nat) :
    Tracks k n (c.store link value expiresAt) where
  capacity := h.capacity
  listed := by
    intro other e he
    simp only [Cache.store, Dict.get?_insert] at he ⊢
    split at he
    case isTrue hother =>
      obtain rfl := Option.some.inj he
      rw [hother]
      exact List.mem_append_right _ (List.mem_singleton_self _)
    case isFalse => exact List.mem_append_left _ (h.listed he)
  ascending := (h.number link).ascending
  le_clock := (h.number link).le_clock
  loose_le := by
    have hloose := h.loose_le
    simp only [Cache.store, List.length_append, List.length_singleton,
      Dict.size_insert_of_none hlink]
    omega
  fits := by
    simp only [Cache.store, List.length_append, List.length_singleton]
    omega

theorem touch (h : Tracks k n c) (link : String) : Tracks k n (c.touch link).2 := by
  cases he : c.entries.get? link with
  | none =>
    rw [Cache.touch, he]
    exact ⟨h.capacity, h.listed, h.ascending, fun r hr => Nat.le_succ_of_le (h.le_clock r hr),
      h.loose_le, h.fits⟩
  | some e =>
    have hlength := (h.length_remove he).1
    have hfits := h.fits
    rw [touch_eq_store he]
    exact (h.remove link).store (c.get?_remove_self link) (by omega) _ _

theorem touchAll : ∀ (links : List String) {c : Cache α}, Tracks k n c →
    Tracks k n (c.touchAll links).2
  | [], _, h => h
  | link :: links, c, h => by
    rw [touchAll_cons]
    exact touchAll links (h.touch link)

theorem get (h : Tracks k n c) (link : String) (now : Nat) : Tracks k n (c.get link now).2 := by
  rw [Cache.get]
  split
  · exact h
  · split
    · exact h.touch link
    · exact h.remove link

theorem listing (h : Tracks k n c) (now : Nat) : Tracks k n (c.listing now).2 :=
  touchAll _ (h.purge now)

/-- A put that is done leaves no number without an entry, one that breaks off leaves one. -/
theorem put (h : Tracks k n c) (link : String) (value : α) (ttl now : Nat) :
    Tracks (k + (!Clock.tells now ttl).toNat) n (c.put link value ttl now).2 := by
  cases htells : Clock.tells now ttl with
  | true =>
    rw [put_of_tells htells]
    exact (h.roomFor link now).store (c.get?_roomFor link now) (h.length_roomFor_lt link now) _ _
  | false =>
    rw [put_of_not_tells htells]
    exact (h.roomFor link now).number link

end Tracks

end Cache

end CloudInventory
