import CloudInventory.Proofs.Cache.Tracking

/-!
What a cache stores and shows, whatever has become of its list of touches. Every operation but a put
that is done leaves a part of what was stored; such a put adds one link to that. A listing answers
all that can be seen, in the order of the links.
-/

namespace CloudInventory.Cache

variable {α : Type} {now : Nat} {c c' c'' : Cache α}

/-! ### Parts -/

/-- A cache stores nothing that another one does not store in the same way. -/
def PartOf (c c' : Cache α) : Prop := ∀ link x, c.stored link = some x → c'.stored link = some x

theorem PartOf.refl (c : Cache α) : PartOf c c := fun _ _ h => h

theorem PartOf.trans (h : PartOf c c') (h' : PartOf c' c'') : PartOf c c'' :=
  fun link x hx => h' link x (h link x hx)

theorem partOf_of_stored_eq (h : c.stored = c'.stored) : PartOf c c' :=
  fun _ _ hx => h ▸ hx

theorem partOf_remove (c : Cache α) (link : String) : PartOf (c.remove link) c := by
  intro other x hx
  rw [stored_remove] at hx
  split at hx
  · cases hx
  · exact hx

theorem partOf_evictOldest (c : Cache α) : PartOf c.evictOldest c := by
  cases hrecency : c.recency with
  | nil =>
    rw [evictOldest_of_nil hrecency]
    exact .refl c
  | cons r rest =>
    intro other x hx
    rw [evictOldest_of_cons hrecency, stored, Dict.get?_erase] at hx
    split at hx
    · cases hx
    · exact hx

theorem partOf_purge (c : Cache α) (now : Nat) : PartOf (c.purge now) c := by
  intro link x hx
  rw [stored_purge] at hx
  exact (Option.filter_eq_some_iff.1 hx).1

theorem partOf_roomFor (c : Cache α) (link : String) (now : Nat) :
    PartOf (c.roomFor link now) c := by
  obtain ⟨e, -, hroomFor⟩ | ⟨-, ⟨-, hroomFor⟩ | ⟨-, ⟨-, hroomFor⟩ | ⟨-, hroomFor⟩⟩⟩ :=
    c.roomFor_cases link now <;> rw [hroomFor]
  · exact c.partOf_remove link
  · exact .refl c
  · exact c.partOf_evictOldest
  · exact c.partOf_purge now

theorem partOf_get (c : Cache α) (link : String) (now : Nat) : PartOf (c.get link now).2 c := by
  unfold get
  split
  · exact .refl c
  · split
    · exact partOf_of_stored_eq (stored_touch c link)
    · exact c.partOf_remove link

theorem partOf_listing (c : Cache α) (now : Nat) : PartOf (c.listing now).2 c :=
  (partOf_of_stored_eq (touchAll_stored _ (c.purge now)).2).trans (c.partOf_purge now)

section Names

variable [HasId α] {kind : AssetKind}

theorem partOf_resolve (c : Cache α) (link : String) (kind : AssetKind) (now : Nat) :
    PartOf (c.resolve link kind now).2 c := by
  have hget := c.partOf_get link now
  unfold resolve resolveId
  split
  · exact .refl c
  · generalize c.get link now = found at hget ⊢
    rcases found with ⟨_ | value, c'⟩ <;> exact hget

theorem partOf_resolveAll (kind : AssetKind) (now : Nat) : ∀ (links : List String) (c : Cache α),
    PartOf (c.resolveAll kind now links).2 c
  | [], c => .refl c
  | link :: links, c =>
    (partOf_resolveAll kind now links _).trans (c.partOf_resolve link kind now)

end Names

/-! ### Putting -/

/-- A put that is done stores its value, and one that breaks off takes the place of its link. -/
theorem stored_put (c : Cache α) (link : String) (value : α) (ttl now : Nat) (other : String) :
    (c.put link value ttl now).2.stored other =
      if other = link then if Clock.tells now ttl then some (value, now + ttl) else none
      else (c.roomFor link now).stored other := by
  cases htells : Clock.tells now ttl with
  | true =>
    rw [put_of_tells htells, stored, store, Dict.get?_insert]
    by_cases hsame : other = link
    · rw [if_pos hsame, if_pos hsame]
      rfl
    · rw [if_neg hsame, if_neg hsame]
      rfl
  | false =>
    rw [put_of_not_tells htells]
    by_cases hsame : other = link
    · rw [if_pos hsame, hsame]
      exact Option.map_eq_none_iff.2 (c.get?_roomFor link now)
    · rw [if_neg hsame]
      rfl

/-- After a put there is its value or what was stored before. -/
theorem stored_put_cases {link other : String} {value : α} {ttl : Nat} {x : α × Nat}
    (h : (c.put link value ttl now).2.stored other = some x) :
    other = link ∧ Clock.tells now ttl = true ∧ x = (value, now + ttl) ∨
      other ≠ link ∧ c.stored other = some x := by
  rw [stored_put] at h
  split at h
  case isTrue hsame =>
    split at h
    case isTrue htells => exact .inl ⟨hsame, htells, (Option.some.inj h).symm⟩
    case isFalse => cases h
  case isFalse hother => exact .inr ⟨hother, c.partOf_roomFor link now other x h⟩

/-- A put that breaks off adds nothing. -/
theorem partOf_put {ttl : Nat} (htells : Clock.tells now ttl = false) (link : String) (value : α) :
    PartOf (c.put link value ttl now).2 c := by
  intro other x hx
  rcases stored_put_cases hx with ⟨-, htells', -⟩ | ⟨-, hstored⟩
  · rw [htells] at htells'
    cases htells'
  · exact hstored

/-! ### Showing -/

/-- All that can be seen in a cache, in the order of the bytes of the links. -/
structure Shows (now : Nat) (c : Cache α) (live : List (Held α)) : Prop where
  ascending : (live.map fun x => Text.bytes x.link).Pairwise (· < ·)
  mem_iff : ∀ link value expiresAt,
    ⟨link, value, expiresAt⟩ ∈ live ↔ c.seen now link = some (value, expiresAt)

theorem exists_shows (c : Cache α) (now : Nat) : ∃ live, c.Shows now live := by
  refine ⟨Held.left now (c.entries.toList.map Held.ofEntry), ?_, fun link value expiresAt => ?_⟩
  · rw [← map_filter_isLive]
    refine List.pairwise_map.2 (List.pairwise_map.2 ?_)
    exact (c.entries.ascending.sublist List.filter_sublist).imp Text.bytes_lt_iff.2
  · rw [seen, stored, Option.filter_eq_some_iff, Option.map_eq_some_iff, Held.mem_left,
      decide_eq_true_iff]
    refine and_congr_left fun _ => ?_
    simp only [List.mem_map, Dict.get?_eq_some_iff]
    constructor
    · rintro ⟨⟨_, e⟩, he, hheld⟩
      obtain ⟨rfl, rfl, rfl⟩ := Held.mk.inj hheld
      exact ⟨e, he, rfl⟩
    · rintro ⟨e, he, hpair⟩
      obtain ⟨rfl, rfl⟩ := Prod.mk.inj hpair
      exact ⟨(link, e), he, rfl⟩

theorem shows_withCapacity (n now : Nat) : (withCapacity n : Cache α).Shows now [] :=
  ⟨.nil, fun _ _ _ => iff_of_false List.not_mem_nil nofun⟩

namespace Shows

variable {live : List (Held α)}

theorem congr (h : c.Shows now live) (hseen : c'.seen now = c.seen now) : c'.Shows now live :=
  ⟨h.ascending, fun link value expiresAt => by rw [hseen, h.mem_iff]⟩

theorem seen_of_mem (h : c.Shows now live) {x : Held α} (hx : x ∈ live) :
    c.seen now x.link = some (x.value, x.expiresAt) :=
  (h.mem_iff x.link x.value x.expiresAt).1 hx

theorem links_ascending (h : c.Shows now live) : (live.map Held.link).Pairwise (· < ·) :=
  List.pairwise_map.2 ((List.pairwise_map.1 h.ascending).imp Text.bytes_lt_iff.1)

theorem nodup_links (h : c.Shows now live) : (live.map Held.link).Nodup := by
  refine List.nodup_iff_pairwise_ne.2 (h.links_ascending.imp ?_)
  rintro link _ hlt rfl
  exact String.lt_irrefl link hlt

theorem mem_links_iff (h : c.Shows now live) {link : String} :
    link ∈ live.map Held.link ↔ c.seen now link ≠ none := by
  rw [List.mem_map, Option.ne_none_iff_exists']
  constructor
  · rintro ⟨x, hx, rfl⟩
    exact ⟨_, h.seen_of_mem hx⟩
  · rintro ⟨⟨value, expiresAt⟩, hseen⟩
    exact ⟨_, (h.mem_iff _ _ _).2 hseen, rfl⟩

/-- After a purge what is shown is all there is. -/
theorem keys_purge (h : c.Shows now live) : (c.purge now).entries.keys = live.map Held.link := by
  have hperm : (c.purge now).entries.keys.Perm (live.map Held.link) :=
    (List.perm_ext_iff_of_nodup (Dict.nodup_keys _) h.nodup_links).2 fun link => by
      rw [mem_keys_iff, stored_purge, h.mem_links_iff]
  have hkeys : (c.purge now).entries.keys.Pairwise (· < ·) :=
    List.pairwise_map.2 (c.purge now).entries.ascending
  exact hperm.eq_of_pairwise (fun _ _ _ _ hlt hgt => (String.lt_asymm hlt hgt).elim) hkeys
    h.links_ascending

/-- A listing answers what is shown. -/
theorem listing_fst (h : c.Shows now live) : (c.listing now).1 = live.map Held.pair := by
  rw [listing, (touchAll_stored _ (c.purge now)).1, h.keys_purge, stored_purge,
    List.filterMap_map]
  refine List.filterMap_eq_map_iff_forall_eq_some.2 fun x hx => ?_
  show (c.seen now x.link).map (fun y => (x.link, y.1)) = some x.pair
  rw [h.seen_of_mem hx]
  rfl

/-- A value is live when it is shown. -/
theorem lives_iff (h : c.Shows now live) {value : α} :
    c.Lives now value ↔ ∃ x ∈ live, x.value = value := by
  constructor
  · rintro ⟨link, e, hget, hlive, rfl⟩
    refine ⟨⟨link, e.value, e.expiresAt⟩, (h.mem_iff _ _ _).2 ?_, rfl⟩
    rw [seen, stored, hget, Option.map_some]
    exact Option.filter_eq_some_iff.2 ⟨rfl, hlive⟩
  · rintro ⟨x, hx, rfl⟩
    obtain ⟨hstored, hlive⟩ := Option.filter_eq_some_iff.1 (h.seen_of_mem hx)
    obtain ⟨e, hget, hpair⟩ := Option.map_eq_some_iff.1 hstored
    obtain ⟨hvalue, hexpires⟩ := Prod.mk.inj hpair
    refine ⟨x.link, e, hget, ?_, hvalue⟩
    rw [isLive, hexpires]
    exact hlive

theorem ne_nil_iff (h : c.Shows now live) : live ≠ [] ↔ c.isEmpty now = false := by
  have hsome : live ≠ [] ↔ ∃ value, c.Lives now value := by
    simp only [h.lives_iff]
    constructor
    · intro hne
      obtain ⟨x, hx⟩ := List.exists_mem_of_ne_nil _ hne
      exact ⟨_, x, hx, rfl⟩
    · rintro ⟨-, x, hx, -⟩
      exact List.ne_nil_of_mem hx
  rw [hsome, isEmpty, decide_eq_false_iff_not, size, List.length_eq_zero_iff,
    List.filter_eq_nil_iff]
  constructor
  · rintro ⟨value, link, e, hget, hlive, -⟩ hnone
    exact hnone e (List.mem_map_of_mem (Dict.get?_eq_some_iff.1 hget)) hlive
  · intro hsome
    push Not at hsome
    obtain ⟨e, he, hlive⟩ := hsome
    obtain ⟨⟨link, e⟩, hmem, rfl⟩ := List.mem_map.1 he
    exact ⟨e.value, link, e, Dict.get?_eq_some_iff.2 hmem, hlive, rfl⟩

end Shows

/-- A cache shows what is left of what it holds. -/
theorem Holds.shows {n : Nat} {hs : List (Held α)} (h : Holds n c hs) (now : Nat) :
    c.Shows now (Held.sorted (Held.left now hs)) where
  ascending := by
    have hperm := (Held.sorted_perm (Held.left now hs)).map Held.link
    have hnodup : (Held.sorted (Held.left now hs)).Pairwise fun x y => x.link ≠ y.link :=
      List.pairwise_map.1 (hperm.nodup_iff.2
        (h.nodup_links.sublist ((Held.left_sublist now hs).map _)))
    have hle := List.pairwise_map.1 (Held.sorted_pairwise (Held.left now hs))
    refine List.pairwise_map.2 ((hle.and hnodup).imp fun hxy => ?_)
    obtain ⟨hle, hne⟩ := hxy
    exact Text.bytes_lt_iff.2 (String.not_le.1 fun hge => hne (String.le_antisymm hle hge))
  mem_iff _ _ _ := (Held.sorted_perm _).mem_iff.trans h.seen_eq_some_iff.symm

end CloudInventory.Cache
