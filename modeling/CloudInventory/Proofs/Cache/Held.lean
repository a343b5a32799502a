import CloudInventory.Proofs.Cache.Stores
import CloudInventory.Proofs.Text.Bytes

/-!
A cache as its readers know it: links with values and times, without the numbers of the touches.
`Holds n c hs` says that `c` holds `hs`, least recently touched first. What an operation answers
and what it leaves depend on `hs` alone, entries that have expired included; `left now hs` are the
ones that have not.
-/

namespace CloudInventory

/-- What a cache holds under a link. -/
structure Held (α : Type) where
  link : String
  value : α
  expiresAt : Nat
  deriving DecidableEq, Repr

namespace Held

variable {α : Type}

/-- What an entry holds. -/
def ofEntry (p : String × CacheEntry α) : Held α := ⟨p.1, p.2.value, p.2.expiresAt⟩

/-- The link and the value. -/
def pair (h : Held α) : String × α := (h.link, h.value)

/-- What is left at a time; the rest has expired. -/
def left (now : Nat) (hs : List (Held α)) : List (Held α) := hs.filter fun h => now < h.expiresAt

/-- All but what is held under a link. -/
def without (link : String) (hs : List (Held α)) : List (Held α) :=
  hs.filter fun h => h.link ≠ link

/-- In the order of the bytes of the links. -/
def sorted (hs : List (Held α)) : List (Held α) :=
  hs.mergeSort fun a b => Text.bytes a.link ≤ Text.bytes b.link

/-- What stays when `link` comes into a cache of capacity `n` at `now`. -/
def staying (n : Nat) (link : String) (now : Nat) (hs : List (Held α)) : List (Held α) :=
  if link ∈ hs.map Held.link then without link hs
  else if hs.length < n then hs
  else if ∀ h ∈ hs, now < h.expiresAt then hs.tail
  else left now hs

/-! ### Sublists -/

theorem left_sublist (now : Nat) (hs : List (Held α)) : (left now hs).Sublist hs :=
  List.filter_sublist

theorem without_sublist (link : String) (hs : List (Held α)) : (without link hs).Sublist hs :=
  List.filter_sublist

theorem not_mem_without (link : String) (hs : List (Held α)) :
    link ∉ (without link hs).map Held.link := by
  simp [without]

theorem without_eq_self {link : String} {hs : List (Held α)} (h : link ∉ hs.map Held.link) :
    without link hs = hs :=
  List.filter_eq_self.2 fun x hx => decide_eq_true fun he => h (List.mem_map.2 ⟨x, hx, he⟩)

theorem length_without_lt {hs : List (Held α)} {h : Held α} (hh : h ∈ hs) :
    (without h.link hs).length < hs.length :=
  List.length_filter_lt_length_iff_exists.2 ⟨h, hh, by simp⟩

/-- An expired entry is lost when only the others are left. -/
theorem length_left_lt {now : Nat} {hs : List (Held α)} {h : Held α} (hh : h ∈ hs)
    (hdead : ¬ now < h.expiresAt) : (left now hs).length < hs.length :=
  List.length_filter_lt_length_iff_exists.2 ⟨h, hh, by simpa using hdead⟩

theorem left_eq_self {now : Nat} {hs : List (Held α)} (h : ∀ x ∈ hs, now < x.expiresAt) :
    left now hs = hs :=
  List.filter_eq_self.2 fun x hx => decide_eq_true (h x hx)

theorem mem_left {now : Nat} {hs : List (Held α)} {h : Held α} :
    h ∈ left now hs ↔ h ∈ hs ∧ now < h.expiresAt := by
  simp [left]

/-- What is left later is left of what is left now. -/
theorem left_left {now later : Nat} (hle : now ≤ later) (hs : List (Held α)) :
    left later (left now hs) = left later hs := by
  rw [left, left, List.filter_filter]
  refine List.filter_congr fun h _ => ?_
  rw [Bool.eq_iff_iff, Bool.and_eq_true, decide_eq_true_iff, decide_eq_true_iff]
  exact ⟨And.left, fun hlt => ⟨hlt, Nat.lt_of_le_of_lt hle hlt⟩⟩

theorem left_append (now : Nat) (hs xs : List (Held α)) :
    left now (hs ++ xs) = left now hs ++ left now xs :=
  List.filter_append _ _

theorem left_without (now : Nat) (link : String) (hs : List (Held α)) :
    left now (without link hs) = without link (left now hs) := by
  rw [left, without, without, left, List.filter_filter, List.filter_filter]
  exact List.filter_congr fun h _ => Bool.and_comm _ _

theorem sorted_perm (hs : List (Held α)) : (sorted hs).Perm hs := List.mergeSort_perm _ _

theorem sorted_eq_nil_iff {hs : List (Held α)} : sorted hs = [] ↔ hs = [] := by
  rw [← List.length_eq_zero_iff, (sorted_perm hs).length_eq, List.length_eq_zero_iff]

theorem sorted_pairwise (hs : List (Held α)) :
    ((sorted hs).map Held.link).Pairwise (· ≤ ·) := by
  simp only [sorted, Text.bytes_le_iff]
  refine List.pairwise_map.2 ((List.pairwise_mergeSort ?_ ?_ hs).imp of_decide_eq_true)
  · intro x y z hxy hyz
    exact decide_eq_true (String.le_trans (of_decide_eq_true hxy) (of_decide_eq_true hyz))
  · intro x y
    rw [Bool.or_eq_true, decide_eq_true_iff, decide_eq_true_iff]
    exact String.le_total _ _

theorem staying_sublist (n : Nat) (link : String) (now : Nat) (hs : List (Held α)) :
    (staying n link now hs).Sublist hs := by
  unfold staying
  split
  · exact without_sublist link hs
  · split
    · exact List.Sublist.refl _
    · split
      · exact List.tail_sublist hs
      · exact left_sublist now hs

theorem not_mem_staying (n : Nat) (link : String) (now : Nat) (hs : List (Held α)) :
    link ∉ (staying n link now hs).map Held.link := by
  by_cases hlink : link ∈ hs.map Held.link
  · rw [staying, if_pos hlink]
    exact not_mem_without link hs
  · exact fun hmem => hlink (((staying_sublist n link now hs).map _).subset hmem)

theorem length_staying_lt {n : Nat} (hn : 0 < n) {hs : List (Held α)} (hfits : hs.length ≤ n)
    (link : String) (now : Nat) : (staying n link now hs).length < n := by
  unfold staying
  split
  case isTrue hlink =>
    obtain ⟨h, hh, rfl⟩ := List.mem_map.1 hlink
    exact Nat.lt_of_lt_of_le (length_without_lt hh) hfits
  case isFalse =>
    split
    · assumption
    · split
      · rw [List.length_tail]; omega
      case isFalse hdead =>
        obtain ⟨h, hh, hexpired⟩ := not_forall₂.1 hdead
        exact Nat.lt_of_lt_of_le (length_left_lt hh hexpired) hfits

end Held

namespace Cache

variable {α : Type}

/-- A cache of capacity `n` holds `hs`, least recently touched first. -/
def Holds (n : Nat) (c : Cache α) (hs : List (Held α)) : Prop :=
  ∃ es, Stores n c es ∧ es.map Held.ofEntry = hs

/-- A value is stored in a cache and still live. -/
def Lives (now : Nat) (c : Cache α) (value : α) : Prop :=
  ∃ link e, c.entries.get? link = some e ∧ isLive now e = true ∧ e.value = value

/-- What is stored under a link: the value and when it expires. -/
def stored (c : Cache α) (link : String) : Option (α × Nat) :=
  (c.entries.get? link).map fun e => (e.value, e.expiresAt)

/-- What can be seen under a link: what is stored there, unless it has expired. -/
def seen (now : Nat) (c : Cache α) (link : String) : Option (α × Nat) :=
  (c.stored link).filter fun x => now < x.2

theorem holds_withCapacity (n : Nat) : Holds (max n 1) (withCapacity n : Cache α) [] :=
  ⟨[], stores_withCapacity n, rfl⟩

theorem map_link (es : List (String × CacheEntry α)) :
    (es.map Held.ofEntry).map Held.link = es.map Prod.fst := by
  rw [List.map_map]; rfl

theorem map_filter_link (link : String) (es : List (String × CacheEntry α)) :
    (es.filter fun p => p.1 ≠ link).map Held.ofEntry = Held.without link (es.map Held.ofEntry) := by
  rw [Held.without, List.filter_map]; rfl

theorem map_filter_isLive (now : Nat) (es : List (String × CacheEntry α)) :
    (es.filter fun p => isLive now p.2).map Held.ofEntry = Held.left now (es.map Held.ofEntry) := by
  rw [Held.left, List.filter_map]; rfl

namespace Holds

variable {n : Nat} {c : Cache α} {hs : List (Held α)}

theorem nodup_links (h : Holds n c hs) : (hs.map Held.link).Nodup := by
  obtain ⟨es, hes, rfl⟩ := h
  rw [map_link]
  exact hes.nodup_links

theorem eq_of_link (h : Holds n c hs) {x y : Held α} (hx : x ∈ hs) (hy : y ∈ hs)
    (hlink : x.link = y.link) : x = y :=
  List.inj_on_of_nodup_map h.nodup_links hx hy hlink

theorem length_le (h : Holds n c hs) : hs.length ≤ n := by
  obtain ⟨es, hes, rfl⟩ := h
  rw [List.length_map]
  exact hes.fits

theorem size_eq (h : Holds n c hs) (now : Nat) : c.size now = (Held.left now hs).length := by
  obtain ⟨es, hes, rfl⟩ := h
  rw [hes.size_eq, ← map_filter_isLive, List.length_map]

/-! ### One link -/

theorem get?_eq_none_iff (h : Holds n c hs) {link : String} :
    c.entries.get? link = none ↔ link ∉ hs.map Held.link := by
  obtain ⟨es, hes, rfl⟩ := h
  rw [map_link, hes.get?_eq_none_iff]

theorem remove (h : Holds n c hs) (link : String) :
    Holds n (c.remove link) (Held.without link hs) := by
  obtain ⟨es, hes, rfl⟩ := h
  exact ⟨_, hes.remove link, map_filter_link link es⟩

theorem touch (h : Holds n c hs) {x : Held α} (hx : x ∈ hs) :
    ∃ c', c.touch x.link = (some x.value, c') ∧ Holds n c' (Held.without x.link hs ++ [x]) := by
  obtain ⟨es, hes, rfl⟩ := h
  obtain ⟨⟨link, e⟩, he, rfl⟩ := List.mem_map.1 hx
  obtain ⟨c', k, htouch, hstores⟩ := hes.touch he
  refine ⟨c', htouch, _, hstores, ?_⟩
  rw [List.map_append, map_filter_link]
  rfl

theorem makeRoom (h : Holds n c hs) {link : String} (hlink : link ∉ hs.map Held.link)
    (now : Nat) : Holds n (c.makeRoom now) (Held.staying n link now hs) := by
  obtain ⟨es, hes, rfl⟩ := h
  have hlive : (∀ p ∈ es, isLive now p.2 = true) ↔
      ∀ x ∈ es.map Held.ofEntry, now < x.expiresAt := by
    rw [List.forall_mem_map]
    exact forall₂_congr fun p _ => decide_eq_true_iff
  rw [Cache.makeRoom, Held.staying, if_neg hlink, List.length_map, hes.size_entries, hes.capacity]
  split
  · exact ⟨es, hes, rfl⟩
  · simp only [hes.expired_eq_nil_iff, hlive]
    split
    · exact ⟨_, hes.evictOldest, List.map_tail⟩
    · exact ⟨_, hes.purge now, map_filter_isLive now es⟩

/-- Room for a link is made by removing its own entry or others; either way what stays is left. -/
theorem roomFor (h : Holds n c hs) (link : String) (now : Nat) :
    Holds n (c.roomFor link now) (Held.staying n link now hs) := by
  rw [Cache.roomFor]
  cases hget : c.entries.get? link with
  | none => exact h.makeRoom (h.get?_eq_none_iff.1 hget) now
  | some e =>
    have hmem : link ∈ hs.map Held.link := by
      rw [← not_not (a := link ∈ _), ← h.get?_eq_none_iff, hget]
      simp
    rw [Held.staying, if_pos hmem]
    exact h.remove link

/-- A put that is done leaves what stays, and the value at the end. -/
theorem put (h : Holds n c hs) {ttl now : Nat} (htells : Clock.tells now ttl = true)
    (link : String) (value : α) :
    Holds n (c.put link value ttl now).2
      (Held.staying n link now hs ++ [⟨link, value, now + ttl⟩]) := by
  obtain ⟨es, hes, he⟩ := h.roomFor link now
  have hn : 0 < n := hes.capacity ▸ (c.roomFor link now).capacity_pos
  have hnew : link ∉ es.map Prod.fst := by
    rw [← map_link, he]; exact Held.not_mem_staying n link now hs
  have hlt : es.length < n := by
    rw [← List.length_map Held.ofEntry, he]
    exact Held.length_staying_lt hn h.length_le link now
  rw [put_of_tells htells]
  exact ⟨_, hes.store hnew hlt value (now + ttl), by rw [List.map_append, he]; rfl⟩

/-- Looking a live link up touches it. -/
theorem get_of_live (h : Holds n c hs) {x : Held α} (hx : x ∈ hs) {now : Nat}
    (hlive : now < x.expiresAt) :
    ∃ c', c.get x.link now = (some x.value, c') ∧ Holds n c' (Held.without x.link hs ++ [x]) := by
  obtain ⟨c', htouch, hc'⟩ := h.touch hx
  obtain ⟨es, hes, rfl⟩ := h
  obtain ⟨⟨link, e⟩, he, rfl⟩ := List.mem_map.1 hx
  refine ⟨c', ?_, hc'⟩
  have hlive' : isLive now e = true := decide_eq_true hlive
  rw [Cache.get, show c.entries.get? (Held.ofEntry (link, e)).link = some e from hes.get?_iff.2 he]
  simp only [hlive', if_true]
  exact htouch

/-- Looking a link up that is not live answers nothing, and leaves all that is live. -/
theorem get_of_not_live (h : Holds n c hs) {link : String} {now : Nat}
    (hlink : link ∉ (Held.left now hs).map Held.link) :
    ∃ c', c.get link now = (none, c') ∧ Holds n c' (Held.without link hs) := by
  cases hget : c.entries.get? link with
  | none =>
    refine ⟨c, by rw [Cache.get, hget], ?_⟩
    rwa [Held.without_eq_self (h.get?_eq_none_iff.1 hget)]
  | some e =>
    refine ⟨c.remove link, ?_, h.remove link⟩
    obtain ⟨es, hes, rfl⟩ := h
    have hmem : Held.ofEntry (link, e) ∈ es.map Held.ofEntry :=
      List.mem_map_of_mem (hes.get?_iff.1 hget)
    have hdead : isLive now e = false := Bool.eq_false_iff.2 fun hlive =>
      hlink (List.mem_map.2 ⟨_, Held.mem_left.2 ⟨hmem, of_decide_eq_true hlive⟩, rfl⟩)
    rw [Cache.get, hget]
    simp [hdead]

/-! ### All links -/

/-- What can be seen is what is left. -/
theorem seen_eq_some_iff (h : Holds n c hs) {now : Nat} {link : String} {value : α}
    {expiresAt : Nat} :
    c.seen now link = some (value, expiresAt) ↔ ⟨link, value, expiresAt⟩ ∈ Held.left now hs := by
  obtain ⟨es, hes, rfl⟩ := h
  rw [seen, Option.filter_eq_some_iff, stored, Option.map_eq_some_iff, Held.mem_left,
    decide_eq_true_iff]
  refine and_congr_left fun _ => ?_
  constructor
  · rintro ⟨e, hget, hpair⟩
    obtain ⟨rfl, rfl⟩ := Prod.mk.inj hpair
    exact List.mem_map.2 ⟨(link, e), hes.get?_iff.1 hget, rfl⟩
  · intro hmem
    obtain ⟨⟨_, e⟩, he, hheld⟩ := List.mem_map.1 hmem
    obtain ⟨rfl, rfl, rfl⟩ := Held.mk.inj hheld
    exact ⟨e, hes.get?_iff.2 he, rfl⟩

theorem purge (h : Holds n c hs) (now : Nat) : Holds n (c.purge now) (Held.left now hs) := by
  obtain ⟨es, hes, rfl⟩ := h
  exact ⟨_, hes.purge now, map_filter_isLive now es⟩

/-- Touching links in turn brings them to the end in that order. -/
theorem touchAll : ∀ (xs : List (Held α)) {c : Cache α} {hs : List (Held α)}, Holds n c hs →
    xs ⊆ hs → (xs.map Held.link).Nodup →
    ∃ c', c.touchAll (xs.map Held.link) = (xs.map Held.pair, c') ∧
      Holds n c' (hs.filter (fun h => h.link ∉ xs.map Held.link) ++ xs)
  | [], c, hs, h, _, _ => ⟨c, rfl, by simpa using h⟩
  | x :: xs, c, hs, h, hsub, hnodup => by
    obtain ⟨hx, hxs⟩ := List.nodup_cons.1 hnodup
    obtain ⟨c₁, htouch, hc₁⟩ := h.touch (hsub List.mem_cons_self)
    have hsub₁ : xs ⊆ Held.without x.link hs ++ [x] := fun y hy =>
      List.mem_append_left _ (List.mem_filter.2 ⟨hsub (List.mem_cons_of_mem _ hy),
        decide_eq_true fun he => hx (List.mem_map.2 ⟨y, hy, he⟩)⟩)
    obtain ⟨c₂, hall, hc₂⟩ := touchAll xs hc₁ hsub₁ hxs
    refine ⟨c₂, ?_, ?_⟩
    · rw [List.map_cons, Cache.touchAll, htouch]
      simp only [hall]
      rfl
    · have hlast : [x].filter (fun h => h.link ∉ xs.map Held.link) = [x] :=
        List.filter_eq_self.2 fun y hy => decide_eq_true (List.mem_singleton.1 hy ▸ hx)
      rw [List.filter_append, hlast, Held.without, List.filter_filter, List.append_assoc] at hc₂
      simpa [Bool.and_comm] using hc₂

theorem keys_eq (h : Holds n c hs) : c.entries.keys = (Held.sorted hs).map Held.link := by
  have hperm : c.entries.keys.Perm ((Held.sorted hs).map Held.link) := by
    refine List.Perm.trans ?_ ((Held.sorted_perm hs).map Held.link).symm
    obtain ⟨es, hes, rfl⟩ := h
    rw [map_link]
    exact hes.perm.map Prod.fst
  refine hperm.eq_of_pairwise (fun _ _ _ _ => String.le_antisymm) ?_ (Held.sorted_pairwise hs)
  refine List.pairwise_map.2 (c.entries.ascending.imp fun hlt => String.not_lt.1 fun hgt => ?_)
  exact String.lt_irrefl _ (String.lt_trans hlt hgt)

/-- A listing answers what is left in the order of the links, and touches it in that order. -/
theorem listing (h : Holds n c hs) (now : Nat) :
    ∃ c', c.listing now = ((Held.sorted (Held.left now hs)).map Held.pair, c') ∧
      Holds n c' (Held.sorted (Held.left now hs)) := by
  have hpurge := h.purge now
  have hperm := Held.sorted_perm (Held.left now hs)
  obtain ⟨c', hall, hc'⟩ := touchAll (Held.sorted (Held.left now hs)) hpurge
    hperm.subset ((hperm.map Held.link).nodup_iff.2 hpurge.nodup_links)
  refine ⟨c', by rw [Cache.listing, hpurge.keys_eq, hall], ?_⟩
  have hnone : (Held.left now hs).filter
      (fun h => h.link ∉ (Held.sorted (Held.left now hs)).map Held.link) = [] :=
    List.filter_eq_nil_iff.2 fun x hx => by
      simpa using ⟨x, hperm.mem_iff.2 hx, rfl⟩
  rwa [hnone, List.nil_append] at hc'

end Holds

end Cache

end CloudInventory
