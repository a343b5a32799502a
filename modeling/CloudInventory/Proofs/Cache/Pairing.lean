import CloudInventory.Proofs.Cache.Ideal
import CloudInventory.Proofs.Cache.Tracking

/-!
The two parts of a cache in step: its entries, and the list of the numbers of their last touches. A
put that breaks off lists its link and stores nothing, and the cache goes on to be used. The main
statement is that this is the only way to fall out of step, and how far that goes: with `k` puts
broken off at most `k` numbers are listed without an entry, and a cache of capacity `n` stores at
most `n + k` entries. Numbers are never given twice.
-/

namespace CloudInventory.Cache

variable {α : Type}

/-- The two parts of a cache of capacity `n` are in step. -/
structure Paired (n : Nat) (c : Cache α) : Prop where
  /-- A number is listed with a link exactly when the entry of the link has it. -/
  listed_iff : ∀ {number link}, (number, link) ∈ c.recency ↔
    ∃ e, c.entries.get? link = some e ∧ e.touched = number
  /-- No two links have one number. -/
  touched_ne : ∀ {link link' e e'}, c.entries.get? link = some e →
    c.entries.get? link' = some e' → link ≠ link' → e.touched ≠ e'.touched
  ascending : c.recency.Pairwise fun r s => r.1 < s.1
  touched_le : ∀ {link e}, c.entries.get? link = some e → e.touched ≤ c.clock
  size_le : c.entries.size ≤ n

/-- The next number has not been used. -/
def Fresh (c : Cache α) : Prop :=
  (∀ r ∈ c.recency, r.1 ≠ c.clock + 1) ∧
    ∀ link e, c.entries.get? link = some e → e.touched ≠ c.clock + 1

section Parts

variable {k n : Nat} {c : Cache α}

theorem Tracks.fresh (h : Tracks k n c) : c.Fresh := by
  have hlt : ∀ r ∈ c.recency, r.1 ≠ c.clock + 1 := fun r hr =>
    Nat.ne_of_lt (Nat.lt_succ_of_le (h.le_clock r hr))
  exact ⟨hlt, fun link e he => hlt _ (h.listed he)⟩

/-- With no number to spare the two parts are in step. -/
theorem Tracks.paired (h : Tracks 0 n c) : Paired n c where
  listed_iff := by
    intro number link
    -- there are no more numbers than entries, so the entries' own numbers are all there are
    have hle : c.recency.length ≤ (Tracks.listings c).length := by
      rw [Tracks.listings, List.length_map]
      exact h.loose_le
    rw [← (h.listings_subperm.perm_of_length_le hle).mem_iff]
    exact Tracks.mem_listings
  touched_ne := fun he he' hne htouched =>
    hne (congrArg Prod.snd (h.eq_of_number (h.listed he) (h.listed he') htouched))
  ascending := h.ascending
  touched_le := fun he => h.le_clock _ (h.listed he)
  size_le := h.size_le

/-- In step, what is evicted is a stored entry. -/
theorem Paired.size_evictOldest (h : Paired n c) (hsome : 0 < c.entries.size) :
    c.evictOldest.entries.size + 1 = c.entries.size := by
  cases hrecency : c.recency with
  | nil =>
    obtain ⟨p, hp⟩ := List.exists_mem_of_length_pos hsome
    have hlisted := h.listed_iff.2 ⟨p.2, Dict.get?_eq_some_iff.2 hp, rfl⟩
    rw [hrecency] at hlisted
    cases hlisted
  | cons r rest =>
    obtain ⟨number, link⟩ := r
    obtain ⟨e, he, -⟩ := h.listed_iff.1 (hrecency ▸ List.mem_cons_self)
    rw [evictOldest_of_cons hrecency]
    exact Dict.size_erase_of_some he

end Parts

/-! ### The clock -/

theorem clock_remove (c : Cache α) (link : String) : (c.remove link).clock = c.clock := by
  rw [remove]
  split <;> rfl

theorem clock_purge (c : Cache α) (now : Nat) : (c.purge now).clock = c.clock := by
  rw [purge]
  generalize c.expired now = links
  induction links generalizing c with
  | nil => rfl
  | cons link links ih => rw [List.foldl_cons, ih, clock_remove]

theorem clock_evictOldest (c : Cache α) : c.evictOldest.clock = c.clock := by
  rw [evictOldest]
  split <;> rfl

theorem clock_roomFor (c : Cache α) (link : String) (now : Nat) :
    (c.roomFor link now).clock = c.clock := by
  obtain ⟨e, -, hroomFor⟩ | ⟨-, ⟨-, hroomFor⟩ | ⟨-, ⟨-, hroomFor⟩ | ⟨-, hroomFor⟩⟩⟩ :=
    c.roomFor_cases link now <;> rw [hroomFor]
  · exact c.clock_remove link
  · exact c.clock_evictOldest
  · exact c.clock_purge now

theorem clock_put (c : Cache α) (link : String) (value : α) (ttl now : Nat) :
    (c.put link value ttl now).2.clock = c.clock + 1 := by
  rw [← c.clock_roomFor link now, put]
  split <;> rfl

theorem clock_touch (c : Cache α) (link : String) : (c.touch link).2.clock = c.clock + 1 := by
  rw [touch]
  split <;> rfl

theorem clock_touchAll : ∀ (links : List String) (c : Cache α),
    (c.touchAll links).2.clock = c.clock + links.length
  | [], _ => rfl
  | link :: links, c => by
    rw [touchAll_cons, clock_touchAll links, clock_touch, List.length_cons]
    omega

theorem clock_listing (c : Cache α) (now : Nat) :
    (c.listing now).2.clock = c.clock + (c.purge now).entries.size := by
  rw [listing, clock_touchAll, clock_purge, Dict.length_keys]

theorem clock_get (c : Cache α) (link : String) (now : Nat) :
    c.clock ≤ (c.get link now).2.clock ∧ (c.get link now).2.clock ≤ c.clock + 1 := by
  rw [get]
  split
  · exact ⟨Nat.le_refl _, Nat.le_succ _⟩
  · split
    · rw [clock_touch]
      exact ⟨Nat.le_succ _, Nat.le_refl _⟩
    · rw [clock_remove]
      exact ⟨Nat.le_refl _, Nat.le_succ _⟩

/-! ### Runs -/

section Runs

variable [HasId α] {k n now : Nat} {c : Cache α}

/-- The caches of which a request at `now` gives the next number to a link. -/
inductive Numbers (now : Nat) (c : Cache α) : Request α → Cache α → Prop where
  | put (link : String) (value : α) (ttl : Nat) :
    Numbers now c (.put link value ttl) (c.roomFor link now)
  | get (link : String) : Numbers now c (.get link) c
  | resolveId (link : String) : Numbers now c (.resolveId link) c
  | getAll (links : List String) (hlinks : links <+: (c.purge now).entries.keys) :
    Numbers now c .getAll ((c.purge now).touchAll links).2

theorem after_append (c : Cache α) (calls calls' : List (Nat × Request α)) :
    c.after (calls ++ calls') = (c.after calls).after calls' :=
  List.foldl_append

theorem Tracks.serve (h : Tracks k n c) (now : Nat) (r : Request α) :
    Tracks (k + (breaksOff (now, r)).toNat) n (c.serve now r).2 := by
  cases r with
  | put link value ttl => exact h.put link value ttl now
  | get link => exact h.get link now
  | resolveId link => exact h.get link now
  | getAll => exact h.listing now
  | len => exact h
  | isEmpty => exact h

omit [HasId α] in
theorem countP_breaksOff_cons (now : Nat) (r : Request α) (calls : List (Nat × Request α)) :
    ((now, r) :: calls).countP breaksOff =
      (breaksOff (now, r)).toNat + calls.countP breaksOff := by
  rw [List.countP_cons, Nat.add_comm]
  cases breaksOff (now, r) <;> rfl

theorem Tracks.after : ∀ (calls : List (Nat × Request α)) {k : Nat} {c : Cache α},
    Tracks k n c → Tracks (k + calls.countP breaksOff) n (c.after calls)
  | [], _, _, h => h
  | (now, r) :: calls, k, c, h => by
    rw [countP_breaksOff_cons, ← Nat.add_assoc]
    exact after calls (h.serve now r)

omit [HasId α] in
theorem Numbers.fresh {r : Request α} {d : Cache α} (hd : Numbers now c r d)
    (h : Tracks k n c) : d.Fresh := by
  cases hd with
  | put link => exact (h.roomFor link now).fresh
  | get | resolveId => exact h.fresh
  | getAll links => exact (Tracks.touchAll links (h.purge now)).fresh

/-- The clock does not go back, and not on by more than the cache can be listed with. -/
theorem Tracks.clock_serve (h : Tracks k n c) (now : Nat) (r : Request α) :
    c.clock ≤ (c.serve now r).2.clock ∧ (c.serve now r).2.clock ≤ c.clock + (n + k) := by
  have hn : 0 < n := h.capacity ▸ c.capacity_pos
  cases r with
  | put link value ttl =>
    have hclock := c.clock_put link value ttl now
    show c.clock ≤ (c.put link value ttl now).2.clock ∧ (c.put link value ttl now).2.clock ≤ _
    omega
  | get link | resolveId link =>
    have hclock := c.clock_get link now
    exact ⟨hclock.1, by have := hclock.2; show (c.get link now).2.clock ≤ _; omega⟩
  | getAll =>
    have hclock := c.clock_listing now
    have hsize := (h.purge now).size_le
    show c.clock ≤ (c.listing now).2.clock ∧ (c.listing now).2.clock ≤ _
    omega
  | len | isEmpty => exact ⟨Nat.le_refl _, Nat.le_add_right _ _⟩

/-- As long as no more than `k` puts break off, every request takes the clock on by at most what the
cache can store then. -/
theorem Tracks.clock_after : ∀ (calls : List (Nat × Request α)) {j : Nat} {c : Cache α},
    Tracks j n c → j + calls.countP breaksOff ≤ k →
    (c.after calls).clock ≤ c.clock + calls.length * (n + k)
  | [], _, _, _, _ => Nat.le_add_right _ _
  | (now, r) :: calls, j, c, h, hle => by
    rw [countP_breaksOff_cons] at hle
    have hfirst := (h.clock_serve now r).2
    have hrest := clock_after calls (h.serve now r) (by omega)
    rw [List.length_cons, Nat.succ_mul]
    exact Nat.le_trans hrest (by omega)

/-- After a put that has broken off the two parts are not in step. -/
theorem not_paired_of_breaksOff {call : Nat × Request α} (h : breaksOff call = true) (n : Nat)
    (c : Cache α) : ¬ (c.serve call.1 call.2).2.Paired n := by
  obtain ⟨now, r⟩ := call
  cases r with
  | put link value ttl =>
    have htells : Clock.tells now ttl = false := by simpa [breaksOff] using h
    have hput : (c.serve now (.put link value ttl)).2 = (c.roomFor link now).number link :=
      congrArg Prod.snd (put_of_not_tells htells c link value)
    intro hpaired
    dsimp only at hpaired
    rw [hput] at hpaired
    have hlisted : ((c.roomFor link now).clock + 1, link) ∈
        ((c.roomFor link now).number link).recency :=
      List.mem_append_right _ (List.mem_singleton_self _)
    obtain ⟨e, he, -⟩ := hpaired.listed_iff.1 hlisted
    rw [number, get?_roomFor] at he
    cases he
  | _ => cases h

end Runs

/-- CORRECT: whatever a cache is asked, at whatever times, its two parts are in step all along
exactly when no put breaks off, and that is when every request has an answer. As long as the parts
are in step, what is evicted is a stored entry. With `k` puts broken off, at most `k` numbers are
listed without an entry, and the cache stores at most `k` entries more than its capacity (where zero
counts as one). Always, a stored entry is listed with its number, numbers ascend up to the clock,
which does not go back, and one that is given has not been used. -/
theorem paired_iff [HasId α] (capacity : Nat) (calls : List (Nat × Request α)) :
    let empty : Cache α := withCapacity capacity
    let c := empty.after calls
    let n := max capacity 1
    let k := calls.countP breaksOff
    ((∀ done, done <+: calls → (empty.after done).Paired n) ↔
        ∀ call ∈ calls, breaksOff call = false) ∧
      ((∀ call ∈ calls, breaksOff call = false) ↔ .brokenOff ∉ empty.serveAll calls) ∧
      (c.Paired n → 0 < c.entries.size → c.evictOldest.entries.size + 1 = c.entries.size) ∧
      c.Tracks k n ∧ c.entries.size ≤ n + k ∧
      (∀ now r d, Numbers now c r d → d.Fresh) ∧
      (∀ now r, c.clock ≤ (c.serve now r).2.clock) ∧ c.clock ≤ calls.length * (n + k) := by
  intro empty c n k
  have htracks (done : List (Nat × Request α)) :
      Tracks (done.countP breaksOff) n (empty.after done) := by
    have h := (tracks_withCapacity capacity).after done
    rwa [Nat.zero_add] at h
  have hclock : c.clock ≤ 0 + calls.length * (n + k) :=
    (tracks_withCapacity capacity).clock_after calls (Nat.zero_add _).le
  have hanswered : (∀ call ∈ calls, breaksOff call = false) ↔
      .brokenOff ∉ empty.serveAll calls := by
    rw [brokenOff_mem_serveAll_iff]
    simp
  rw [Nat.zero_add] at hclock
  refine ⟨⟨fun hpaired call hcall => ?_, fun hdone done hfront => ?_⟩,
    hanswered, fun hpaired => hpaired.size_evictOldest, htracks calls,
    (htracks calls).size_le, fun _ _ _ hd => hd.fresh (htracks calls),
    fun now r => ((htracks calls).clock_serve now r).1, hclock⟩
  · -- right after a put that breaks off the parts are not in step
    obtain ⟨done, rest, rfl⟩ := List.append_of_mem hcall
    have hlast := hpaired (done ++ [call]) ⟨rest, by simp⟩
    rw [after_append] at hlast
    by_contra hbreaks
    exact not_paired_of_breaksOff ((Bool.not_eq_false _).mp hbreaks) n _ hlast
  · have hnone : done.countP breaksOff = 0 := List.countP_eq_zero.2 fun call hcall => by
      rw [hdone call (hfront.subset hcall)]
      exact Bool.false_ne_true
    exact (hnone ▸ htracks done).paired

attribute [local instance] textHasId

theorem not_paired_farExpiry :
    let run := (withCapacity 1 : Cache String).after
    (¬ ∀ done, done <+: farExpiry → (run done).Paired 1) ∧
      (run (farExpiry.take 1)).recency = [(1, "a")] ∧
      (run (farExpiry.take 1)).entries.toList = [] ∧
      (run (farExpiry.take 2)).evictOldest.entries = (run (farExpiry.take 2)).entries ∧
      (run farExpiry).entries.keys = ["b", "c"] := by
  intro run
  refine ⟨fun hpaired => ?_, by decide, by decide, by decide, by decide⟩
  have hdone := (paired_iff 1 farExpiry).1.1 hpaired
  exact absurd (hdone (0, .put "a" "1" Clock.range) List.mem_cons_self) (by decide)

end CloudInventory.Cache
