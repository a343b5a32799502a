import CloudInventory.Cache
import Mathlib.Data.List.Nodup

/-!
What a cache stores, as one list. `Stores n c es` says that `c` has capacity `n` and that its
entries are exactly `es`, in the order of their last touches: the list is what `entries` and
`recency` have in common, so a cache that stores some list has its two parts in step. Every
operation is described by what it does to the list, and that is all later proofs know of it.
-/

namespace CloudInventory.Cache

variable {α : Type}

/-- A cache of capacity `n` stores `es`, in the order of the last touches. -/
structure Stores (n : Nat) (c : Cache α) (es : List (String × CacheEntry α)) : Prop where
  capacity : c.capacity = n
  get?_iff : ∀ {link e}, c.entries.get? link = some e ↔ (link, e) ∈ es
  recency : c.recency = es.map fun p => (p.2.touched, p.1)
  ascending : es.Pairwise fun p q => p.2.touched < q.2.touched
  le_clock : ∀ p ∈ es, p.2.touched ≤ c.clock
  fits : es.length ≤ n

/-- A cache with one more entry, the last one touched. -/
def store (c : Cache α) (link : String) (value : α) (expiresAt : Nat) : Cache α :=
  { c with
    clock := c.clock + 1
    entries := c.entries.insert link ⟨value, expiresAt, c.clock + 1⟩
    recency := c.recency ++ [(c.clock + 1, link)] }

/-- Where the clock can tell when the entry expires, a put makes room and stores the entry. -/
theorem put_of_tells {now ttl : Nat} (h : Clock.tells now ttl = true) (c : Cache α)
    (link : String) (value : α) :
    c.put link value ttl now = (true, (c.roomFor link now).store link value (now + ttl)) := by
  rw [put, if_pos h]
  rfl

/-- Where the clock cannot tell it, a put makes room and lists the link with a number. -/
theorem put_of_not_tells {now ttl : Nat} (h : Clock.tells now ttl = false) (c : Cache α)
    (link : String) (value : α) :
    c.put link value ttl now = (false, (c.roomFor link now).number link) := by
  rw [put, if_neg (by rw [h]; exact Bool.false_ne_true)]

theorem put_fst (c : Cache α) (link : String) (value : α) (ttl now : Nat) :
    (c.put link value ttl now).1 = Clock.tells now ttl := by
  rw [put]
  split
  case isTrue htells => exact htells.symm
  case isFalse htells => exact (Bool.eq_false_iff.2 htells).symm

theorem remove_of_none {c : Cache α} {link : String} (h : c.entries.get? link = none) :
    c.remove link = c := by
  rw [remove, h]

theorem remove_of_some {c : Cache α} {link : String} {e : CacheEntry α}
    (h : c.entries.get? link = some e) :
    c.remove link = { c with
      entries := c.entries.erase link
      recency := c.recency.filter fun r => r.1 ≠ e.touched } := by
  rw [remove, h]

/-- Touching a stored entry is removing it and storing it again, with the next number. -/
theorem touch_eq_store {c : Cache α} {link : String} {e : CacheEntry α}
    (h : c.entries.get? link = some e) :
    c.touch link = (some e.value, (c.remove link).store link e.value e.expiresAt) := by
  simp only [touch, remove, store, h]
  congr 2
  refine Dict.ext_get? fun j => ?_
  simp only [Dict.get?_insert, Dict.get?_erase]
  split <;> rfl

theorem evictOldest_of_nil {c : Cache α} (h : c.recency = []) : c.evictOldest = c := by
  rw [evictOldest, h]

theorem evictOldest_of_cons {c : Cache α} {number : Nat} {link : String}
    {rest : List (Nat × String)} (h : c.recency = (number, link) :: rest) :
    c.evictOldest = { c with entries := c.entries.erase link, recency := rest } := by
  rw [evictOldest, h]

theorem stores_withCapacity (n : Nat) : Stores (max n 1) (withCapacity n : Cache α) [] where
  capacity := rfl
  get?_iff := by simp [withCapacity]
  recency := rfl
  ascending := .nil
  le_clock := by simp
  fits := Nat.zero_le _

namespace Stores

variable {n : Nat} {c : Cache α} {es : List (String × CacheEntry α)}

/-! ### The list -/

theorem nodup (h : Stores n c es) : es.Nodup :=
  h.ascending.imp fun hlt he => by rw [he] at hlt; exact Nat.lt_irrefl _ hlt

theorem eq_of_link (h : Stores n c es) {p q : String × CacheEntry α} (hp : p ∈ es) (hq : q ∈ es)
    (hlink : p.1 = q.1) : p = q := by
  have hp' : c.entries.get? p.1 = some p.2 := h.get?_iff.2 hp
  have hq' : c.entries.get? q.1 = some q.2 := h.get?_iff.2 hq
  rw [hlink, hq'] at hp'
  exact Prod.ext hlink (Option.some.inj hp').symm

/-- A touch number belongs to one entry. -/
theorem eq_of_touched (h : Stores n c es) {p q : String × CacheEntry α} (hp : p ∈ es)
    (hq : q ∈ es) (ht : p.2.touched = q.2.touched) : p = q := by
  have hn : (es.map fun p => p.2.touched).Nodup :=
    List.pairwise_map.2 (h.ascending.imp Nat.ne_of_lt)
  exact List.inj_on_of_nodup_map hn hp hq ht

theorem nodup_links (h : Stores n c es) : (es.map Prod.fst).Nodup :=
  List.Nodup.map_on (fun _ hp _ hq hlink => h.eq_of_link hp hq hlink) h.nodup

theorem get?_eq_none_iff (h : Stores n c es) {link : String} :
    c.entries.get? link = none ↔ link ∉ es.map Prod.fst := by
  rw [Option.eq_none_iff_forall_ne_some]
  constructor
  · intro hnone hmem
    obtain ⟨p, hp, rfl⟩ := List.mem_map.1 hmem
    exact hnone p.2 (h.get?_iff.2 hp)
  · intro hmem e he
    exact hmem (List.mem_map.2 ⟨(link, e), h.get?_iff.1 he, rfl⟩)

/-- The dictionary lists the same entries, in another order. -/
theorem perm (h : Stores n c es) : c.entries.toList.Perm es := by
  have hkeys : c.entries.toList.Nodup := c.entries.nodup_keys.of_map
  refine (List.perm_ext_iff_of_nodup hkeys h.nodup).2 fun p => ?_
  rw [← h.get?_iff, Dict.get?_eq_some_iff]

theorem size_entries (h : Stores n c es) : c.entries.size = es.length := h.perm.length_eq

theorem mem_expired_iff (h : Stores n c es) {now : Nat} {p : String × CacheEntry α}
    (hp : p ∈ es) : p.1 ∈ c.expired now ↔ isLive now p.2 = false := by
  simp only [expired, List.mem_map, List.mem_filter, h.perm.mem_iff, Bool.not_eq_true']
  constructor
  · rintro ⟨q, ⟨hq, hdead⟩, hlink⟩
    rwa [h.eq_of_link hq hp hlink] at hdead
  · exact fun hdead => ⟨p, ⟨hp, hdead⟩, rfl⟩

theorem expired_eq_nil_iff (h : Stores n c es) {now : Nat} :
    c.expired now = [] ↔ ∀ p ∈ es, isLive now p.2 = true := by
  simp only [expired, List.map_eq_nil_iff, List.filter_eq_nil_iff, h.perm.mem_iff,
    Bool.not_eq_true', Bool.not_eq_false]

theorem size_eq (h : Stores n c es) (now : Nat) :
    c.size now = (es.filter fun p => isLive now p.2).length := by
  have hperm := (h.perm.map Prod.snd).filter (isLive now)
  rw [size, show c.entries.values = c.entries.toList.map Prod.snd from rfl, hperm.length_eq,
    List.filter_map, List.length_map]
  rfl

/-! ### The operations -/

/-- Removing a link takes its entry out of the list. -/
theorem remove (h : Stores n c es) (link : String) :
    Stores n (c.remove link) (es.filter fun p => p.1 ≠ link) := by
  cases hlink : c.entries.get? link with
  | none =>
    have hkeep : es.filter (fun p => p.1 ≠ link) = es := by
      refine List.filter_eq_self.2 fun p hp => decide_eq_true fun he => ?_
      exact h.get?_eq_none_iff.1 hlink (List.mem_map.2 ⟨p, hp, he⟩)
    rwa [hkeep, remove_of_none hlink]
  | some e =>
    have hmem : (link, e) ∈ es := h.get?_iff.1 hlink
    -- the number of the removed entry is no other's, so both parts lose the same entry
    have hnumber : ∀ p ∈ es, (p.2.touched ≠ e.touched ↔ p.1 ≠ link) := fun p hp =>
      not_congr ⟨fun ht => congrArg Prod.fst (h.eq_of_touched hp hmem ht),
        fun hl => by rw [h.eq_of_link hp hmem hl]⟩
    rw [remove_of_some hlink]
    refine ⟨h.capacity, ?_, ?_, h.ascending.filter _, ?_, ?_⟩
    · intro j f
      simp only [Dict.get?_erase, List.mem_filter, ← h.get?_iff]
      by_cases hj : j = link <;> simp [hj]
    · simp only [h.recency, List.filter_map]
      refine congrArg _ (List.filter_congr fun p hp => ?_)
      exact decide_eq_decide.2 (hnumber p hp)
    · exact fun p hp => h.le_clock p (List.mem_of_mem_filter hp)
    · exact Nat.le_trans (List.length_filter_le _ _) h.fits

theorem removeAll : ∀ (links : List String) {c : Cache α} {es : List (String × CacheEntry α)},
    Stores n c es → Stores n (links.foldl Cache.remove c) (es.filter fun p => p.1 ∉ links)
  | [], c, es, h => by simpa using h
  | link :: links, c, es, h => by
    have hrest := removeAll links (h.remove link)
    rw [List.filter_filter] at hrest
    simpa [Bool.and_comm] using hrest

/-- Purging leaves the live entries. -/
theorem purge (h : Stores n c es) (now : Nat) :
    Stores n (c.purge now) (es.filter fun p => isLive now p.2) := by
  have hall := h.removeAll (c.expired now)
  have hlive : ∀ p ∈ es, decide (p.1 ∉ c.expired now) = isLive now p.2 := fun p hp => by
    rw [Bool.eq_iff_iff, decide_eq_true_iff, h.mem_expired_iff hp, Bool.not_eq_false]
  rwa [List.filter_congr hlive] at hall

/-- Evicting takes the first entry off the list. -/
theorem evictOldest (h : Stores n c es) : Stores n c.evictOldest es.tail := by
  cases es with
  | nil => rwa [evictOldest_of_nil h.recency]
  | cons p rest =>
    have hfirst : ∀ q ∈ rest, q.1 ≠ p.1 := fun q hq he => by
      have := h.eq_of_link (List.mem_cons_of_mem _ hq) List.mem_cons_self he
      exact (List.nodup_cons.1 h.nodup).1 (this ▸ hq)
    rw [evictOldest_of_cons h.recency]
    refine ⟨h.capacity, ?_, rfl, (List.pairwise_cons.1 h.ascending).2, ?_, ?_⟩
    · intro j f
      rw [Dict.get?_erase, List.tail_cons]
      constructor
      · split
        · simp
        case isFalse hj =>
          rw [h.get?_iff, List.mem_cons]
          exact fun hf => hf.resolve_left fun he => hj (congrArg Prod.fst he)
      · intro hf
        rw [if_neg (hfirst _ hf)]
        exact h.get?_iff.2 (List.mem_cons_of_mem _ hf)
    · exact fun q hq => h.le_clock q (List.mem_cons_of_mem _ hq)
    · exact Nat.le_trans (Nat.le_succ _) h.fits

/-- A new entry goes to the end of the list. -/
theorem store (h : Stores n c es) {link : String} (hlink : link ∉ es.map Prod.fst)
    (hroom : es.length < n) (value : α) (expiresAt : Nat) :
    Stores n (c.store link value expiresAt)
      (es ++ [(link, ⟨value, expiresAt, c.clock + 1⟩)]) := by
  refine ⟨h.capacity, ?_, ?_, ?_, ?_, ?_⟩
  · intro j f
    simp only [Cache.store, Dict.get?_insert, List.mem_append, List.mem_singleton, ← h.get?_iff]
    by_cases hj : j = link
    · subst hj
      simp [h.get?_eq_none_iff.2 hlink, eq_comm]
    · simp [hj]
  · simp [Cache.store, h.recency]
  · refine List.pairwise_append.2 ⟨h.ascending, List.pairwise_singleton _ _, fun p hp q hq => ?_⟩
    rw [List.mem_singleton.1 hq]
    exact Nat.lt_succ_of_le (h.le_clock p hp)
  · intro p hp
    rcases List.mem_append.1 hp with hp | hp
    · exact Nat.le_succ_of_le (h.le_clock p hp)
    · rw [List.mem_singleton.1 hp]; exact Nat.le_refl _
  · rw [List.length_append]; exact hroom

theorem length_filter_lt (h : Stores n c es) {p : String × CacheEntry α} (hp : p ∈ es) :
    (es.filter fun q => q.1 ≠ p.1).length < n :=
  Nat.lt_of_lt_of_le (List.length_filter_lt_length_iff_exists.2 ⟨p, hp, by simp⟩) h.fits

/-- Touching a stored entry moves it to the end of the list, with a new number. -/
theorem touch (h : Stores n c es) {link : String} {e : CacheEntry α} (he : (link, e) ∈ es) :
    ∃ c' k, c.touch link = (some e.value, c') ∧
      Stores n c' ((es.filter fun p => p.1 ≠ link) ++ [(link, { e with touched := k })]) := by
  exact ⟨_, _, touch_eq_store (h.get?_iff.2 he),
    (h.remove link).store (by simp) (h.length_filter_lt he) _ _⟩

end Stores

end CloudInventory.Cache
