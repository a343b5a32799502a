import CloudInventory.Links
import CloudInventory.Proofs.Cache.Held

/-!
What lookups do to what can be seen in a cache: nothing. A lookup touches an entry or drops one that
has expired, and a listing does so with all of them; neither shows. And what they answer is told by
what can be seen. All this is so of any cache, whether or not its two parts are in step.
-/

namespace CloudInventory

namespace Cache

variable {α : Type} {now : Nat} {c d : Cache α}

/-! ### One link -/

theorem seen_congr (h : c.stored = d.stored) : c.seen now = d.seen now := by
  funext link
  rw [seen, seen, h]

/-- A touch answers what is stored. -/
theorem touch_fst (c : Cache α) (link : String) :
    (c.touch link).1 = (c.stored link).map Prod.fst := by
  unfold touch stored
  cases c.entries.get? link <;> rfl

theorem stored_touch (c : Cache α) (link : String) : (c.touch link).2.stored = c.stored := by
  unfold touch
  cases hlink : c.entries.get? link with
  | none => rfl
  | some e =>
    funext other
    rw [stored, stored, Dict.get?_insert]
    by_cases hsame : other = link
    · rw [if_pos hsame, hsame, hlink]
      rfl
    · rw [if_neg hsame]

theorem stored_remove (c : Cache α) (link other : String) :
    (c.remove link).stored other = if other = link then none else c.stored other := by
  unfold remove
  cases hlink : c.entries.get? link with
  | none =>
    by_cases hsame : other = link
    · rw [if_pos hsame, stored, hsame, hlink]
      rfl
    · rw [if_neg hsame]
  | some e =>
    rw [stored, Dict.get?_erase]
    by_cases hsame : other = link
    · rw [if_pos hsame, if_pos hsame]
      rfl
    · rw [if_neg hsame, if_neg hsame, stored]

/-- Removing what cannot be seen does not show. -/
theorem seen_remove {link : String} (h : c.seen now link = none) :
    (c.remove link).seen now = c.seen now := by
  funext other
  rw [seen, stored_remove]
  by_cases hsame : other = link
  · rw [if_pos hsame, hsame, h]
    rfl
  · rw [if_neg hsame, seen]

/-- A lookup finds what can be seen, and does not show. -/
theorem get_seen (c : Cache α) (link : String) (now : Nat) :
    (c.get link now).1 = (c.seen now link).map Prod.fst ∧
      (c.get link now).2.seen now = c.seen now := by
  unfold get
  cases hlink : c.entries.get? link with
  | none => exact ⟨by simp [seen, stored, hlink], rfl⟩
  | some e =>
    have hstored : c.stored link = some (e.value, e.expiresAt) := by rw [stored, hlink]; rfl
    by_cases hlive : now < e.expiresAt
    · have hseen : c.seen now link = some (e.value, e.expiresAt) := by
        rw [seen, hstored, Option.filter_some, if_pos (decide_eq_true hlive)]
      simp only [isLive, decide_eq_true hlive, if_true]
      rw [touch_fst, hstored, hseen]
      exact ⟨rfl, seen_congr (stored_touch c link)⟩
    · have hseen : c.seen now link = none := by
        rw [seen, hstored, Option.filter_some, if_neg (by simpa using hlive)]
      simp only [isLive, decide_eq_false hlive, Bool.false_eq_true, if_false]
      exact ⟨by rw [hseen]; rfl, seen_remove hseen⟩

/-! ### Names -/

section Names

variable [HasId α] {kind : AssetKind}

/-- The name behind a link, as far as something can be seen there. -/
def nameSeen (seen : String → Option (α × Nat)) (kind : AssetKind) (link : String) : Option Ean :=
  if link = "" then none
  else (seen link).bind fun x => if HasId.id x.1 = "" then none else some ⟨kind, HasId.id x.1⟩

theorem resolve_seen (c : Cache α) (link : String) (kind : AssetKind) (now : Nat) :
    (c.resolve link kind now).1 = nameSeen (c.seen now) kind link ∧
      (c.resolve link kind now).2.seen now = c.seen now := by
  obtain ⟨hanswer, hseen⟩ := get_seen c link now
  unfold resolve nameSeen
  by_cases hlink : link = ""
  · rw [if_pos hlink, if_pos hlink]
    exact ⟨rfl, rfl⟩
  · rw [if_neg hlink, if_neg hlink, resolveId]
    generalize c.get link now = found at hanswer hseen ⊢
    obtain ⟨value, c'⟩ := found
    obtain rfl : value = (c.seen now link).map Prod.fst := hanswer
    cases c.seen now link with
    | none => exact ⟨rfl, hseen⟩
    | some x => exact ⟨rfl, hseen⟩

theorem resolveAll_seen (kind : AssetKind) (now : Nat) : ∀ (links : List String) (c : Cache α),
    (c.resolveAll kind now links).1 = links.filterMap (nameSeen (c.seen now) kind) ∧
      (c.resolveAll kind now links).2.seen now = c.seen now
  | [], c => ⟨rfl, rfl⟩
  | link :: links, c => by
    obtain ⟨hname, hseen⟩ := resolve_seen c link kind now
    obtain ⟨hnames, hseen'⟩ := resolveAll_seen kind now links (c.resolve link kind now).2
    have hall : (c.resolveAll kind now (link :: links)).1 =
        (c.resolve link kind now).1.toList ++
          ((c.resolve link kind now).2.resolveAll kind now links).1 := rfl
    refine ⟨?_, hseen'.trans hseen⟩
    rw [hall, hname, hnames, hseen, List.filterMap_cons]
    cases nameSeen (c.seen now) kind link <;> rfl

end Names

/-! ### All links -/

/-- Touches do not show, and answer what is stored. -/
theorem touchAll_stored : ∀ (links : List String) (c : Cache α),
    (c.touchAll links).1 =
        links.filterMap (fun link => (c.stored link).map fun x => (link, x.1)) ∧
      (c.touchAll links).2.stored = c.stored
  | [], c => ⟨rfl, rfl⟩
  | link :: links, c => by
    have htouch := touch_fst c link
    have hstored := stored_touch c link
    obtain ⟨hrest, hrestStored⟩ := touchAll_stored links (c.touch link).2
    rw [touchAll]
    generalize c.touch link = touched at htouch hstored hrest hrestStored ⊢
    obtain ⟨value, c'⟩ := touched
    obtain rfl : value = (c.stored link).map Prod.fst := htouch
    rw [hstored] at hrest hrestStored
    rw [List.filterMap_cons]
    cases c.stored link with
    | none => exact ⟨hrest, hrestStored⟩
    | some x => exact ⟨congrArg _ hrest, hrestStored⟩

/-- What has expired cannot be seen. -/
theorem seen_of_mem_expired {link : String} (h : link ∈ c.expired now) :
    c.seen now link = none := by
  obtain ⟨⟨_, e⟩, he, rfl⟩ := List.mem_map.1 h
  obtain ⟨hmem, hdead⟩ := List.mem_filter.1 he
  rw [seen, stored, Dict.get?_eq_some_iff.2 hmem, Option.map_some, Option.filter_some]
  simpa [isLive] using hdead

theorem mem_expired_or_seen (c : Cache α) (now : Nat) (link : String) :
    link ∈ c.expired now ∨ c.stored link = c.seen now link := by
  cases hlink : c.entries.get? link with
  | none => exact .inr (by rw [seen, stored, hlink]; rfl)
  | some e =>
    by_cases hlive : now < e.expiresAt
    · refine .inr ?_
      rw [seen, stored, hlink, Option.map_some, Option.filter_some, if_pos (decide_eq_true hlive)]
    · refine .inl (List.mem_map.2 ⟨(link, e), List.mem_filter.2 ⟨?_, ?_⟩, rfl⟩)
      · exact Dict.get?_eq_some_iff.1 hlink
      · simpa [isLive] using hlive

theorem stored_removeAll : ∀ (links : List String) (c : Cache α) (other : String),
    (links.foldl remove c).stored other = if other ∈ links then none else c.stored other
  | [], _, _ => (if_neg List.not_mem_nil).symm
  | link :: links, c, other => by
    rw [List.foldl_cons, stored_removeAll links, stored_remove]
    by_cases hrest : other ∈ links
    · rw [if_pos hrest, if_pos (List.mem_cons_of_mem _ hrest)]
    · rw [if_neg hrest]
      by_cases hsame : other = link
      · rw [if_pos hsame, if_pos (hsame ▸ List.mem_cons_self)]
      · rw [if_neg hsame, if_neg fun h => (List.mem_cons.1 h).elim hsame hrest]

/-- After a purge all that is stored can be seen. -/
theorem stored_purge (c : Cache α) (now : Nat) : (c.purge now).stored = c.seen now := by
  funext link
  rw [purge, stored_removeAll]
  by_cases hexpired : link ∈ c.expired now
  · rw [if_pos hexpired, seen_of_mem_expired hexpired]
  · rw [if_neg hexpired, (mem_expired_or_seen c now link).resolve_left hexpired]

theorem mem_keys_iff {link : String} : link ∈ c.entries.keys ↔ c.stored link ≠ none := by
  rw [Dict.mem_keys_iff, stored, Ne, Option.map_eq_none_iff, ← Ne, Option.isSome_iff_ne_none]

/-- Caches that store the same have the same keys. -/
theorem keys_congr (h : c.stored = d.stored) : c.entries.keys = d.entries.keys := by
  have hperm : c.entries.keys.Perm d.entries.keys :=
    (List.perm_ext_iff_of_nodup c.entries.nodup_keys d.entries.nodup_keys).2 fun link => by
      rw [mem_keys_iff, mem_keys_iff, h]
  have hle : ∀ e : Cache α, e.entries.keys.Pairwise (· ≤ ·) := fun e =>
    List.pairwise_map.2 (e.entries.ascending.imp fun hlt => String.not_lt.1 fun hgt =>
      String.lt_irrefl _ (String.lt_trans hlt hgt))
  exact hperm.eq_of_pairwise (fun _ _ _ _ => String.le_antisymm) (hle c) (hle d)

/-- A listing does not show. -/
theorem seen_listing (c : Cache α) (now : Nat) : (c.listing now).2.seen now = c.seen now := by
  have hstored : (c.listing now).2.stored = c.seen now :=
    (touchAll_stored _ (c.purge now)).2.trans (stored_purge c now)
  funext link
  rw [seen, hstored, seen, Option.filter_filter]
  simp

/-- Caches in which the same can be seen list the same. -/
theorem listing_congr (h : c.seen now = d.seen now) : (c.listing now).1 = (d.listing now).1 := by
  have hstored : (c.purge now).stored = (d.purge now).stored := by
    rw [stored_purge, stored_purge, h]
  rw [listing, listing, (touchAll_stored _ (c.purge now)).1, (touchAll_stored _ (d.purge now)).1,
    hstored, keys_congr hstored]

end Cache

end CloudInventory
