import CloudInventory.Proofs.Cache.Ideal
import CloudInventory.Proofs.Cache.Shown
import Mathlib.Data.List.Dedup
import Mathlib.Data.List.Induction
import Mathlib.Data.List.Perm.Subperm

/-!
A cache as a mirror of what has been put into it. Every put leaves a posting: a link, the id behind
it and the time. As long as there are never more links with a posting younger than the time to live
than the cache has room for, nothing that is live is evicted. So a link leads to the id of its last
posting for exactly that time, whatever is looked up in between, and afterwards nowhere.
-/

namespace CloudInventory

/-- Something with an id has been put under a link at some time. -/
structure Posting where
  link : String
  id : String
  time : Nat
  deriving DecidableEq, Repr

namespace Posting

/-- The last posting of a link. -/
def last? (ps : List Posting) (link : String) : Option Posting :=
  ps.reverse.find? fun p => p.link = link

/-- The last posting of a link, if it is younger than `ttl`. -/
def current? (ttl now : Nat) (ps : List Posting) (link : String) : Option Posting :=
  (last? ps link).filter fun p => now < p.time + ttl

/-- The name that a link leads to: that of the network in its current posting. -/
def edge? (ttl now : Nat) (ps : List Posting) (link : String) : Option Ean :=
  (current? ttl now ps link).map fun p => ⟨.network, p.id⟩

/-- The links that have a current posting. -/
def crowd (ttl now : Nat) (ps : List Posting) : List String :=
  (ps.map link).dedup.filter fun l => (current? ttl now ps l).isSome

/-- There is room for all links that have a current posting. -/
def Fits (n ttl now : Nat) (ps : List Posting) : Prop := (crowd ttl now ps).length ≤ n

instance (n ttl now : Nat) (ps : List Posting) : Decidable (Fits n ttl now ps) :=
  inferInstanceAs (Decidable (_ ≤ _))

variable {n ttl now : Nat} {ps : List Posting} {p q : Posting} {link : String}

theorem last?_concat (ps : List Posting) (p : Posting) (link : String) :
    last? (ps ++ [p]) link = if p.link = link then some p else last? ps link := by
  rw [last?, List.reverse_append, List.reverse_singleton, List.singleton_append, List.find?_cons]
  by_cases h : p.link = link
  · simp [h]
  · simp [h, last?]

theorem mem_of_last? (h : last? ps link = some p) : p ∈ ps ∧ p.link = link :=
  ⟨List.mem_reverse.1 (List.mem_of_find?_eq_some h), by simpa using List.find?_some h⟩

theorem current?_eq_some_iff :
    current? ttl now ps link = some p ↔ last? ps link = some p ∧ now < p.time + ttl := by
  rw [current?, Option.filter_eq_some_iff, decide_eq_true_iff]

theorem mem_crowd :
    link ∈ crowd ttl now ps ↔ ∃ p, last? ps link = some p ∧ now < p.time + ttl := by
  rw [crowd, List.mem_filter, List.mem_dedup, Option.isSome_iff_exists]
  constructor
  · rintro ⟨-, p, hp⟩
    exact ⟨p, current?_eq_some_iff.1 hp⟩
  · rintro ⟨p, hp⟩
    obtain ⟨hmem, rfl⟩ := mem_of_last? hp.1
    exact ⟨List.mem_map_of_mem hmem, p, current?_eq_some_iff.2 hp⟩

theorem nodup_crowd : (crowd ttl now ps).Nodup := (List.nodup_dedup _).filter _

/-- Whoever was in the crowd is in it after a posting at the time. -/
theorem crowd_subset_concat (hpast : ∀ p ∈ ps, p.time ≤ now) (hq : q.time = now) :
    crowd ttl now ps ⊆ crowd ttl now (ps ++ [q]) := by
  intro link hlink
  obtain ⟨p, hp, hfresh⟩ := mem_crowd.1 hlink
  have htime : p.time ≤ now := hpast p (mem_of_last? hp).1
  refine mem_crowd.2 ?_
  rw [last?_concat]
  by_cases h : q.link = link
  · exact ⟨q, if_pos h, by omega⟩
  · exact ⟨p, by rw [if_neg h, hp], hfresh⟩

theorem Fits.of_concat (hpast : ∀ p ∈ ps, p.time ≤ now) (hq : q.time = now)
    (h : Fits n ttl now (ps ++ [q])) : Fits n ttl now ps :=
  Nat.le_trans (nodup_crowd.subperm (crowd_subset_concat hpast hq)).length_le h

/-- Room at some time is room later. -/
theorem Fits.later {time : Nat} (hle : now ≤ time) (h : Fits n ttl now ps) :
    Fits n ttl time ps := by
  refine Nat.le_trans (nodup_crowd.subperm fun link hlink => ?_).length_le h
  obtain ⟨p, hp, hfresh⟩ := mem_crowd.1 hlink
  exact mem_crowd.2 ⟨p, hp, by omega⟩

/-- A link has an edge as long as its last posting is younger than `ttl`. -/
theorem edge?_of_last? (h : last? ps link = some p) (ttl now : Nat) :
    (now < p.time + ttl → edge? ttl now ps link = some ⟨.network, p.id⟩) ∧
      (¬ now < p.time + ttl → edge? ttl now ps link = none) := by
  constructor
  · intro hfresh
    rw [edge?, current?_eq_some_iff.2 ⟨h, hfresh⟩, Option.map_some]
  · intro hstale
    rw [edge?, current?, h, Option.filter_some, if_neg (by simpa using hstale), Option.map_none]

end Posting

/-! ### What is held and what has been posted -/

section Mirrors

variable {α : Type} [HasId α] {n ttl now : Nat} {c : Cache α} {hs hs' : List (Held α)}
  {ps : List Posting}

/-- What is live of the entries is what is current of the postings. -/
def Held.Agrees (ttl now : Nat) (hs : List (Held α)) (ps : List Posting) : Prop :=
  ∀ link id e, now < e → ((∃ x ∈ hs, x.link = link ∧ HasId.id x.value = id ∧ x.expiresAt = e) ↔
    ∃ p, Posting.last? ps link = some p ∧ p.id = id ∧ p.time + ttl = e)

/-- Only what is live matters. -/
theorem Held.Agrees.congr (h : Held.Agrees ttl now hs ps)
    (hlive : ∀ x : Held α, now < x.expiresAt → (x ∈ hs' ↔ x ∈ hs)) :
    Held.Agrees ttl now hs' ps := by
  intro link id e he
  rw [← h link id e he]
  constructor
  · rintro ⟨x, hx, hlink, hid, rfl⟩
    exact ⟨x, (hlive x he).1 hx, hlink, hid, rfl⟩
  · rintro ⟨x, hx, hlink, hid, rfl⟩
    exact ⟨x, (hlive x he).2 hx, hlink, hid, rfl⟩

/-- A cache of capacity `n` holds, of what is live, just the last postings of all links. All of
these are of the past, with links and ids that are not empty. -/
structure Mirrors (n ttl now : Nat) (c : Cache α) (ps : List Posting) : Prop where
  past : ∀ p ∈ ps, p.time ≤ now
  proper : ∀ p ∈ ps, p.link ≠ "" ∧ p.id ≠ ""
  holds : ∃ hs, c.Holds n hs ∧ Held.Agrees ttl now hs ps

namespace Mirrors

theorem withCapacity (capacity ttl now : Nat) :
    Mirrors (max capacity 1) ttl now (.withCapacity capacity : Cache α) [] where
  past := fun _ hp => absurd hp List.not_mem_nil
  proper := fun _ hp => absurd hp List.not_mem_nil
  holds := by
    refine ⟨[], Cache.holds_withCapacity capacity, fun link id e _ => iff_of_false ?_ ?_⟩
    · rintro ⟨x, hx, -⟩
      exact List.not_mem_nil hx
    · rintro ⟨p, hp, -⟩
      exact List.not_mem_nil (Posting.mem_of_last? hp).1

theorem later (h : Mirrors n ttl now c ps) {time : Nat} (hle : now ≤ time) :
    Mirrors n ttl time c ps where
  past := fun p hp => Nat.le_trans (h.past p hp) hle
  proper := h.proper
  holds := by
    obtain ⟨hs, hc, hagrees⟩ := h.holds
    exact ⟨hs, hc, fun link id e he => hagrees link id e (Nat.lt_of_le_of_lt hle he)⟩

/-! ### Looking up -/

/-- Looking a link up answers the id of its current posting. -/
theorem get (h : Mirrors n ttl now c ps) (link : String) :
    ∃ value c', c.get link now = (value, c') ∧ Mirrors n ttl now c' ps ∧
      value.map HasId.id = (Posting.current? ttl now ps link).map Posting.id := by
  obtain ⟨hs, hc, hagrees⟩ := h.holds
  cases hcurrent : Posting.current? ttl now ps link with
  | some p =>
    obtain ⟨hlast, hfresh⟩ := Posting.current?_eq_some_iff.1 hcurrent
    obtain ⟨x, hx, rfl, hid, hexpires⟩ := (hagrees link p.id _ hfresh).2 ⟨p, hlast, rfl, rfl⟩
    obtain ⟨c', hget, hc'⟩ := hc.get_of_live hx (hexpires ▸ hfresh)
    refine ⟨some x.value, c', hget, ⟨h.past, h.proper, _, hc', hagrees.congr fun y _ => ?_⟩, ?_⟩
    · rw [List.mem_append, List.mem_singleton, Held.without, List.mem_filter, decide_eq_true_iff]
      constructor
      · rintro (hy | rfl)
        · exact hy.1
        · exact hx
      · intro hy
        by_cases hlink : y.link = x.link
        · exact .inr (hc.eq_of_link hy hx hlink)
        · exact .inl ⟨hy, hlink⟩
    · rw [Option.map_some, Option.map_some, hid]
  | none =>
    have hdead : ∀ x ∈ hs, now < x.expiresAt → x.link ≠ link := by
      rintro x hx hlive rfl
      obtain ⟨p, hlast, -, hexpires⟩ := (hagrees _ _ _ hlive).1 ⟨x, hx, rfl, rfl, rfl⟩
      have hsome := Posting.current?_eq_some_iff.2 ⟨hlast, hexpires ▸ hlive⟩
      rw [hcurrent] at hsome
      cases hsome
    have hgone : link ∉ (Held.left now hs).map Held.link := fun hmem => by
      obtain ⟨x, hx, hlink⟩ := List.mem_map.1 hmem
      obtain ⟨hx, hlive⟩ := Held.mem_left.1 hx
      exact hdead x hx hlive hlink
    obtain ⟨c', hget, hc'⟩ := hc.get_of_not_live hgone
    refine ⟨none, c', hget, ⟨h.past, h.proper, _, hc', hagrees.congr fun y hlive => ?_⟩, rfl⟩
    rw [Held.without, List.mem_filter, decide_eq_true_iff]
    exact ⟨And.left, fun hy => ⟨hy, hdead y hy hlive⟩⟩

/-- The name behind a link is that of its current posting. -/
theorem resolve (h : Mirrors n ttl now c ps) (link : String) :
    ∃ c', c.resolve link .network now = (Posting.edge? ttl now ps link, c') ∧
      Mirrors n ttl now c' ps := by
  unfold Cache.resolve
  split
  case isTrue hlink =>
    refine ⟨c, ?_, h⟩
    cases hcurrent : Posting.current? ttl now ps link with
    | none => rw [Posting.edge?, hcurrent, Option.map_none]
    | some p =>
      obtain ⟨hmem, hp⟩ := Posting.mem_of_last? (Posting.current?_eq_some_iff.1 hcurrent).1
      exact absurd (hp.trans hlink) (h.proper p hmem).1
  case isFalse hlink =>
    obtain ⟨value, c', hget, hc', hid⟩ := h.get link
    refine ⟨c', ?_, hc'⟩
    rw [Cache.resolveId, hget, Posting.edge?]
    dsimp only
    rw [hid]
    cases hcurrent : Posting.current? ttl now ps link with
    | none => rfl
    | some p =>
      obtain ⟨hmem, -⟩ := Posting.mem_of_last? (Posting.current?_eq_some_iff.1 hcurrent).1
      simp [(h.proper p hmem).2]

/-- The names behind links are those of their current postings, in the order of the links. -/
theorem resolveAll : ∀ (links : List String) {c : Cache α}, Mirrors n ttl now c ps →
    ∃ c', c.resolveAll .network now links =
      (links.filterMap (Posting.edge? ttl now ps), c') ∧ Mirrors n ttl now c' ps
  | [], c, h => ⟨c, rfl, h⟩
  | link :: links, c, h => by
    obtain ⟨c₁, hresolve, hc₁⟩ := h.resolve link
    obtain ⟨c₂, hrest, hc₂⟩ := resolveAll links hc₁
    refine ⟨c₂, ?_, hc₂⟩
    rw [Cache.resolveAll, hresolve]
    simp only [hrest]
    cases hedge : Posting.edge? ttl now ps link <;> simp [hedge]

/-! ### Putting -/

/-- With room for all that is current, a cache with something live in it has room for one more
link. -/
theorem length_left_lt (hc : c.Holds n hs) (hagrees : Held.Agrees ttl now hs ps)
    (hpast : ∀ p ∈ ps, p.time ≤ now) {link id : String}
    (hfits : Posting.Fits n ttl now (ps ++ [⟨link, id, now⟩]))
    (hgone : link ∉ (Held.left now hs).map Held.link) (hsome : Held.left now hs ≠ []) :
    (Held.left now hs).length < n := by
  have hcurrent : ∀ x ∈ Held.left now hs, ∃ p, Posting.last? ps x.link = some p ∧
      now < p.time + ttl := by
    intro x hx
    obtain ⟨hx, hlive⟩ := Held.mem_left.1 hx
    obtain ⟨p, hlast, -, hexpires⟩ := (hagrees _ _ _ hlive).1 ⟨x, hx, rfl, rfl, rfl⟩
    exact ⟨p, hlast, hexpires ▸ hlive⟩
  obtain ⟨y, hy⟩ := List.exists_mem_of_ne_nil _ hsome
  obtain ⟨p, hlast, hfresh⟩ := hcurrent y hy
  have htime : p.time ≤ now := hpast p (Posting.mem_of_last? hlast).1
  have hsub : link :: (Held.left now hs).map Held.link ⊆
      Posting.crowd ttl now (ps ++ [⟨link, id, now⟩]) := by
    intro l hl
    rcases List.mem_cons.1 hl with rfl | hl
    · exact Posting.mem_crowd.2 ⟨_, by rw [Posting.last?_concat, if_pos rfl], by dsimp only; omega⟩
    · obtain ⟨x, hx, rfl⟩ := List.mem_map.1 hl
      exact Posting.crowd_subset_concat hpast rfl (Posting.mem_crowd.2 (hcurrent x hx))
  have hnodup : (link :: (Held.left now hs).map Held.link).Nodup :=
    List.nodup_cons.2 ⟨hgone, hc.nodup_links.sublist ((Held.left_sublist now hs).map _)⟩
  have hlength := Nat.le_trans (hnodup.subperm hsub).length_le hfits
  rw [List.length_cons, List.length_map] at hlength
  omega

/-- With room for all that is current, what stays is what was live under other links. -/
theorem mem_staying_iff (hc : c.Holds n hs) (hagrees : Held.Agrees ttl now hs ps)
    (hpast : ∀ p ∈ ps, p.time ≤ now) {link id : String}
    (hfits : Posting.Fits n ttl now (ps ++ [⟨link, id, now⟩])) {x : Held α}
    (hlive : now < x.expiresAt) :
    x ∈ Held.staying n link now hs ↔ x ∈ hs ∧ x.link ≠ link := by
  have hkept : x ∈ Held.staying n link now hs ↔ x ∈ Cache.Ideal.kept n link (Held.left now hs) := by
    rw [← Cache.Ideal.left_staying hc.length_le, Held.mem_left]
    exact ⟨fun hx => ⟨hx, hlive⟩, And.left⟩
  rw [hkept]
  unfold Cache.Ideal.kept
  split
  case isTrue =>
    rw [Held.without, List.mem_filter, decide_eq_true_iff, Held.mem_left]
    exact and_congr_left' ⟨And.left, fun hx => ⟨hx, hlive⟩⟩
  case isFalse hgone =>
    have hleft : x ∈ Held.left now hs ↔ x ∈ hs ∧ x.link ≠ link := by
      rw [Held.mem_left]
      refine ⟨fun hx => ⟨hx.1, ?_⟩, fun hx => ⟨hx.1, hlive⟩⟩
      rintro rfl
      exact hgone (List.mem_map_of_mem (Held.mem_left.2 hx))
    split
    case isTrue => exact hleft
    case isFalse hfull =>
      by_cases hnone : Held.left now hs = []
      · rw [hnone] at hleft ⊢
        exact hleft
      · exact absurd (length_left_lt hc hagrees hpast hfits hgone hnone) hfull

/-- Where everything live stays but what is under one link, an entry under it comes with its
posting. -/
theorem agrees_concat (hagrees : Held.Agrees ttl now hs ps) {link : String} (value : α)
    (hstay : ∀ x : Held α, now < x.expiresAt → (x ∈ hs' ↔ x ∈ hs ∧ x.link ≠ link)) :
    Held.Agrees ttl now (hs' ++ [⟨link, value, now + ttl⟩])
      (ps ++ [⟨link, HasId.id value, now⟩]) := by
  intro l id e he
  rw [Posting.last?_concat]
  by_cases hl : link = l
  · subst hl
    rw [if_pos rfl]
    constructor
    · rintro ⟨x, hx, hxlink, rfl, rfl⟩
      rcases List.mem_append.1 hx with hx | hx
      · exact absurd hxlink ((hstay x he).1 hx).2
      · obtain rfl := List.mem_singleton.1 hx
        exact ⟨_, rfl, rfl, rfl⟩
    · rintro ⟨p, hp, rfl, rfl⟩
      obtain rfl := Option.some.inj hp
      exact ⟨_, List.mem_append_right _ (List.mem_singleton_self _), rfl, rfl, rfl⟩
  · rw [if_neg hl, ← hagrees l id e he]
    constructor
    · rintro ⟨x, hx, rfl, rfl, rfl⟩
      rcases List.mem_append.1 hx with hx | hx
      · exact ⟨x, ((hstay x he).1 hx).1, rfl, rfl, rfl⟩
      · obtain rfl := List.mem_singleton.1 hx
        exact absurd rfl hl
    · rintro ⟨x, hx, rfl, rfl, rfl⟩
      refine ⟨x, List.mem_append_left _ ?_, rfl, rfl, rfl⟩
      exact (hstay x he).2 ⟨hx, fun heq => hl heq.symm⟩

/-- Putting something under a link adds a posting, if the put is done. -/
theorem put (h : Mirrors n ttl now c ps) (htells : Clock.tells now ttl = true) {link : String}
    {value : α} (hlink : link ≠ "")
    (hid : HasId.id value ≠ "")
    (hfits : Posting.Fits n ttl now (ps ++ [⟨link, HasId.id value, now⟩])) :
    Mirrors n ttl now (c.put link value ttl now).2 (ps ++ [⟨link, HasId.id value, now⟩]) where
  past := List.forall_mem_append.2 ⟨h.past, List.forall_mem_singleton.2 (Nat.le_refl now)⟩
  proper := List.forall_mem_append.2 ⟨h.proper, List.forall_mem_singleton.2 ⟨hlink, hid⟩⟩
  holds := by
    obtain ⟨hs, hc, hagrees⟩ := h.holds
    refine ⟨_, hc.put htells link value, agrees_concat hagrees value fun x hlive => ?_⟩
    exact mem_staying_iff hc hagrees h.past hfits hlive

end Mirrors

end Mirrors

/-! ### What is lost -/

section Reflects

variable {α : Type} [HasId α] {ttl now : Nat} {c c' : Cache α} {ps : List Posting}

/-- Whatever a cache stores is the last posting of its link, until `ttl` after its time. -/
def Reflects (ttl : Nat) (c : Cache α) (ps : List Posting) : Prop :=
  ∀ link x, c.stored link = some x →
    ∃ p, Posting.last? ps link = some p ∧ p.id = HasId.id x.1 ∧ p.time + ttl = x.2

namespace Reflects

theorem withCapacity (capacity ttl : Nat) (ps : List Posting) :
    Reflects ttl (.withCapacity capacity : Cache α) ps := nofun

theorem of_partOf (h : Reflects ttl c ps) (hpart : c'.PartOf c) : Reflects ttl c' ps :=
  fun link x hx => h link x (hpart link x hx)

/-- A put that is done adds a posting. -/
theorem put (h : Reflects ttl c ps) (link : String) (value : α) :
    Reflects ttl (c.put link value ttl now).2 (ps ++ [⟨link, HasId.id value, now⟩]) := by
  intro other x hx
  rw [Posting.last?_concat]
  rcases Cache.stored_put_cases hx with ⟨rfl, -, rfl⟩ | ⟨hother, hstored⟩
  · exact ⟨_, if_pos rfl, rfl, rfl⟩
  · rw [if_neg fun he => hother he.symm]
    exact h other x hstored

/-- The name that can be seen behind a link is that of its current posting. -/
theorem edge?_of_nameSeen (h : Reflects ttl c ps) {link : String} {e : Ean}
    (he : Cache.nameSeen (c.seen now) .network link = some e) :
    Posting.edge? ttl now ps link = some e := by
  unfold Cache.nameSeen at he
  split at he
  · cases he
  obtain ⟨x, hseen, hx⟩ := Option.bind_eq_some_iff.1 he
  split at hx
  · cases hx
  obtain rfl := Option.some.inj hx
  obtain ⟨hstored, hlive⟩ := Option.filter_eq_some_iff.1 hseen
  obtain ⟨p, hlast, hid, hexpires⟩ := h link x hstored
  rw [← hid]
  exact (Posting.edge?_of_last? hlast ttl now).1 (hexpires ▸ of_decide_eq_true hlive)

/-- The names behind links are among those of their current postings, in the order of the links. -/
theorem resolveAll_sublist (h : Reflects ttl c ps) (links : List String) :
    (c.resolveAll .network now links).1.Sublist
      (links.filterMap (Posting.edge? ttl now ps)) := by
  rw [(Cache.resolveAll_seen .network now links c).1]
  induction links with
  | nil => exact .slnil
  | cons link links ih =>
    cases hname : Cache.nameSeen (c.seen now) .network link with
    | none =>
      rw [List.filterMap_cons_none hname]
      cases hedge : Posting.edge? ttl now ps link with
      | none => rwa [List.filterMap_cons_none hedge]
      | some e =>
        rw [List.filterMap_cons_some hedge]
        exact ih.cons e
    | some e =>
      rw [List.filterMap_cons_some hname, List.filterMap_cons_some (h.edge?_of_nameSeen hname)]
      exact ih.cons_cons e

end Reflects

end Reflects

end CloudInventory
