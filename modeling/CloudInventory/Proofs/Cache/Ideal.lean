import CloudInventory.Links
import CloudInventory.Proofs.Cache.Held

/-!
An ideal cache, and when a cache can be told from it. An ideal cache is a list of entries, least
recently touched first, from which an entry vanishes by itself at the instant it expires; it has no
touch numbers, nothing that has expired is ever in it, and no put breaks off. A cache keeps expired
entries until some operation purges them. The main statement is that as long as no put breaks off
all its answers are those of the ideal one, so that an expired entry is never seen and never costs a
live one its place; and that this is needed.
-/

namespace CloudInventory.Cache

variable {α : Type}

/-- What a cache can be asked. -/
inductive Request (α : Type) where
  | put (link : String) (value : α) (ttl : Nat)
  | get (link : String)
  | resolveId (link : String)
  | getAll
  | len
  | isEmpty

/-- What a cache answers. -/
inductive Answer (α : Type) where
  | done
  /-- There is no answer: a put has broken off. -/
  | brokenOff
  | value (v : Option α)
  | id (i : Option String)
  | entries (es : List (String × α))
  | count (n : Nat)
  | flag (b : Bool)
  deriving DecidableEq

section Serving

variable [HasId α]

/-- The answer of a cache to a request at `now`, and the cache after it. -/
def serve (now : Nat) (c : Cache α) : Request α → Answer α × Cache α
  | .put link value ttl =>
    (if (c.put link value ttl now).1 then .done else .brokenOff, (c.put link value ttl now).2)
  | .get link => ((.value (c.get link now).1), (c.get link now).2)
  | .resolveId link => ((.id (c.resolveId link now).1), (c.resolveId link now).2)
  | .getAll => ((.entries (c.listing now).1), (c.listing now).2)
  | .len => (.count (c.size now), c)
  | .isEmpty => (.flag (c.isEmpty now), c)

/-- The answers of a cache to requests with their times. -/
def serveAll (c : Cache α) : List (Nat × Request α) → List (Answer α)
  | [] => []
  | (now, r) :: calls => (c.serve now r).1 :: serveAll (c.serve now r).2 calls

/-- A cache after requests with their times. -/
def after (c : Cache α) (calls : List (Nat × Request α)) : Cache α :=
  calls.foldl (fun c call => (c.serve call.1 call.2).2) c

end Serving

/-- A put breaks off when the clock cannot tell at its time when the entry expires. -/
def breaksOff : Nat × Request α → Bool
  | (now, .put _ _ ttl) => !Clock.tells now ttl
  | _ => false

/-! ### The ideal cache -/

namespace Ideal

/-- What stays when `link` comes in: all but an entry of the same link; if there is none and there
are `n` entries, all but the least recently touched one. -/
def kept (n : Nat) (link : String) (hs : List (Held α)) : List (Held α) :=
  if link ∈ hs.map Held.link then Held.without link hs
  else if hs.length < n then hs
  else hs.tail

/-- Looking a link up moves its entry to the end. -/
def read (link : String) (hs : List (Held α)) : Option α × List (Held α) :=
  match hs.find? fun h => h.link = link with
  | none => (none, hs)
  | some h => (some h.value, Held.without link hs ++ [h])

section Serving

variable [HasId α]

/-- The answer of an ideal cache to a request at `now`, and what it holds after it. -/
def serve (n now : Nat) (hs : List (Held α)) : Request α → Answer α × List (Held α)
  | .put link value ttl => (.done, kept n link hs ++ [⟨link, value, now + ttl⟩])
  | .get link => (.value (read link hs).1, (read link hs).2)
  | .resolveId link => (.id ((read link hs).1.map HasId.id), (read link hs).2)
  | .getAll => (.entries ((Held.sorted hs).map Held.pair), Held.sorted hs)
  | .len => (.count hs.length, hs)
  | .isEmpty => (.flag hs.isEmpty, hs)

/-- The answers of an ideal cache. What has expired by the time of a request has vanished. -/
def serveAll (n : Nat) (hs : List (Held α)) : List (Nat × Request α) → List (Answer α)
  | [] => []
  | (now, r) :: calls =>
    (serve n now (Held.left now hs) r).1 ::
      serveAll n (serve n now (Held.left now hs) r).2 calls

end Serving

theorem left_kept (n now : Nat) (link : String) (hs : List (Held α)) :
    Held.left now (kept n link (Held.left now hs)) = kept n link (Held.left now hs) := by
  have hsub : (kept n link (Held.left now hs)).Sublist (Held.left now hs) := by
    unfold kept
    split
    · exact Held.without_sublist _ _
    · split
      · exact List.Sublist.refl _
      · exact List.tail_sublist _
  exact Held.left_eq_self fun x hx => (Held.mem_left.1 (hsub.subset hx)).2

/-- What stays in a cache, as far as it is live, is what an ideal cache keeps. -/
theorem left_staying {n : Nat} {hs : List (Held α)} (hfits : hs.length ≤ n) (link : String)
    (now : Nat) :
    Held.left now (Held.staying n link now hs) = kept n link (Held.left now hs) := by
  by_cases hlink : link ∈ hs.map Held.link
  · rw [Held.staying, if_pos hlink, Held.left_without, kept]
    split
    · rfl
    case isFalse hgone =>
      -- the entry of the link has expired, so the ideal cache had room for one more
      obtain ⟨x, hx, rfl⟩ := List.mem_map.1 hlink
      have hdead : ¬ now < x.expiresAt := fun hlive =>
        hgone (List.mem_map_of_mem (Held.mem_left.2 ⟨hx, hlive⟩))
      rw [if_pos (Nat.lt_of_lt_of_le (Held.length_left_lt hx hdead) hfits),
        Held.without_eq_self hgone]
  · have hgone : link ∉ (Held.left now hs).map Held.link := fun hmem =>
      hlink (((Held.left_sublist now hs).map _).subset hmem)
    rw [Held.staying, if_neg hlink, kept, if_neg hgone]
    by_cases hroom : hs.length < n
    · have hle := (Held.left_sublist now hs).length_le
      rw [if_pos hroom, if_pos (Nat.lt_of_le_of_lt hle hroom)]
    · rw [if_neg hroom]
      by_cases hlive : ∀ x ∈ hs, now < x.expiresAt
      · have htail : ∀ x ∈ hs.tail, now < x.expiresAt := fun x hx =>
          hlive x (List.mem_of_mem_tail hx)
        rw [if_pos hlive, Held.left_eq_self hlive, Held.left_eq_self htail, if_neg hroom]
      · obtain ⟨x, hx, hdead⟩ := not_forall₂.1 hlive
        rw [if_neg hlive, Held.left_left (Nat.le_refl now),
          if_pos (Nat.lt_of_lt_of_le (Held.length_left_lt hx hdead) hfits)]

end Ideal

/-! ### The simulation -/

/-- A cache of capacity `n` holds, of what has not expired at `now`, the same as `hs`. -/
def Follows (n now : Nat) (c : Cache α) (hs : List (Held α)) : Prop :=
  ∃ all, Holds n c all ∧ Held.left now all = Held.left now hs

namespace Follows

variable {n now : Nat} {c : Cache α} {hs : List (Held α)}

theorem later {time : Nat} (h : Follows n now c hs) (hle : now ≤ time) :
    Follows n time c hs := by
  obtain ⟨all, hall, hleft⟩ := h
  exact ⟨all, hall, by rw [← Held.left_left hle all, hleft, Held.left_left hle hs]⟩

theorem put (h : Follows n now c hs) {ttl : Nat} (htells : Clock.tells now ttl = true)
    (link : String) (value : α) :
    Follows n now (c.put link value ttl now).2
      (Ideal.kept n link (Held.left now hs) ++ [⟨link, value, now + ttl⟩]) := by
  obtain ⟨all, hall, hleft⟩ := h
  refine ⟨_, hall.put htells link value, ?_⟩
  rw [Held.left_append, Held.left_append, Ideal.left_staying hall.length_le, hleft,
    Ideal.left_kept]

theorem get (h : Follows n now c hs) (link : String) :
    (c.get link now).1 = (Ideal.read link (Held.left now hs)).1 ∧
      Follows n now (c.get link now).2 (Ideal.read link (Held.left now hs)).2 := by
  obtain ⟨all, hall, hleft⟩ := h
  cases hfind : (Held.left now hs).find? (fun x => x.link = link) with
  | none =>
    have hgone : link ∉ (Held.left now all).map Held.link := by
      rw [hleft]
      rintro hmem
      obtain ⟨x, hx, rfl⟩ := List.mem_map.1 hmem
      exact List.find?_eq_none.1 hfind x hx (decide_eq_true rfl)
    obtain ⟨c', hget, hc'⟩ := hall.get_of_not_live hgone
    simp only [Ideal.read, hfind, hget, true_and]
    refine ⟨_, hc', ?_⟩
    rw [Held.left_without, Held.without_eq_self hgone, hleft, Held.left_left (Nat.le_refl now)]
  | some x =>
    have hlink : x.link = link := by simpa using List.find?_some hfind
    have hmem : x ∈ Held.left now all := hleft ▸ List.mem_of_find?_eq_some hfind
    obtain ⟨hx, hlive⟩ := Held.mem_left.1 hmem
    subst hlink
    obtain ⟨c', hget, hc'⟩ := hall.get_of_live hx hlive
    simp only [Ideal.read, hfind, hget, true_and]
    refine ⟨_, hc', ?_⟩
    rw [Held.left_append, Held.left_append, Held.left_without, Held.left_without, hleft,
      Held.left_left (Nat.le_refl now)]

theorem listing (h : Follows n now c hs) :
    (c.listing now).1 = (Held.sorted (Held.left now hs)).map Held.pair ∧
      Follows n now (c.listing now).2 (Held.sorted (Held.left now hs)) := by
  obtain ⟨all, hall, hleft⟩ := h
  obtain ⟨c', hlisting, hc'⟩ := hall.listing now
  rw [hlisting, ← hleft]
  exact ⟨rfl, _, hc', rfl⟩

theorem size_eq (h : Follows n now c hs) : c.size now = (Held.left now hs).length := by
  obtain ⟨all, hall, hleft⟩ := h
  rw [hall.size_eq, hleft]

theorem left_iff : Follows n now c (Held.left now hs) ↔ Follows n now c hs := by
  rw [Follows, Follows, Held.left_left (Nat.le_refl now)]

variable [HasId α]

/-- A request that does not break off is answered alike, and the cache goes on following the ideal
one. -/
theorem serve (h : Follows n now c hs) (r : Request α) (hdone : breaksOff (now, r) = false) :
    (c.serve now r).1 = (Ideal.serve n now (Held.left now hs) r).1 ∧
      Follows n now (c.serve now r).2 (Ideal.serve n now (Held.left now hs) r).2 := by
  cases r with
  | put link value ttl =>
    have htells : Clock.tells now ttl = true := by simpa [breaksOff] using hdone
    refine ⟨?_, h.put htells link value⟩
    simp only [Cache.serve, Ideal.serve, put_fst, htells, if_true]
  | get link =>
    obtain ⟨hvalue, hnext⟩ := h.get link
    exact ⟨congrArg Answer.value hvalue, hnext⟩
  | resolveId link =>
    obtain ⟨hvalue, hnext⟩ := h.get link
    exact ⟨congrArg (fun v : Option α => Answer.id (v.map HasId.id)) hvalue, hnext⟩
  | getAll =>
    obtain ⟨hentries, hnext⟩ := h.listing
    exact ⟨congrArg Answer.entries hentries, hnext⟩
  | len => exact ⟨congrArg Answer.count h.size_eq, left_iff.2 h⟩
  | isEmpty =>
    refine ⟨congrArg Answer.flag ?_, left_iff.2 h⟩
    rw [Cache.isEmpty, h.size_eq, Bool.eq_iff_iff, decide_eq_true_iff, List.length_eq_zero_iff,
      List.isEmpty_iff]

/-- All requests are answered alike, as long as their times do not go back and none breaks off. -/
theorem serveAll : ∀ (calls : List (Nat × Request α)) {now : Nat} {c : Cache α}
    {hs : List (Held α)}, Follows n now c hs → (∀ call ∈ calls, now ≤ call.1) →
    (calls.map Prod.fst).Pairwise (· ≤ ·) → (∀ call ∈ calls, breaksOff call = false) →
    c.serveAll calls = Ideal.serveAll n hs calls
  | [], _, _, _, _, _, _, _ => rfl
  | (time, r) :: calls, now, c, hs, h, hnow, hordered, hdone => by
    obtain ⟨hfirst, hrest⟩ := List.pairwise_cons.1 hordered
    obtain ⟨hanswer, hnext⟩ :=
      (h.later (hnow _ List.mem_cons_self)).serve r (hdone _ List.mem_cons_self)
    rw [Cache.serveAll, Ideal.serveAll, hanswer]
    exact congrArg _ (serveAll calls hnext
      (fun call hcall => hfirst _ (List.mem_map_of_mem hcall)) hrest
      fun call hcall => hdone call (List.mem_cons_of_mem _ hcall))

end Follows

/-! ### Broken off -/

section Breaking

variable [HasId α]

/-- A request has no answer exactly if it breaks off. -/
theorem serve_eq_brokenOff_iff (c : Cache α) (now : Nat) (r : Request α) :
    (c.serve now r).1 = .brokenOff ↔ breaksOff (now, r) = true := by
  cases r with
  | put link value ttl =>
    simp only [serve, breaksOff, put_fst]
    cases Clock.tells now ttl <;> simp
  | _ => exact iff_of_false nofun nofun

theorem brokenOff_mem_serveAll_iff : ∀ (calls : List (Nat × Request α)) (c : Cache α),
    .brokenOff ∈ c.serveAll calls ↔ ∃ call ∈ calls, breaksOff call = true
  | [], _ => by simp [serveAll]
  | (now, r) :: calls, c => by
    rw [serveAll, List.mem_cons, eq_comm, serve_eq_brokenOff_iff,
      brokenOff_mem_serveAll_iff calls]
    simp

/-- An ideal cache answers every request. -/
theorem Ideal.brokenOff_not_mem_serveAll (n : Nat) : ∀ (calls : List (Nat × Request α))
    (hs : List (Held α)), .brokenOff ∉ Ideal.serveAll n hs calls
  | [], _ => List.not_mem_nil
  | (now, r) :: calls, hs => by
    rw [Ideal.serveAll, List.mem_cons, not_or]
    refine ⟨?_, brokenOff_not_mem_serveAll n calls _⟩
    cases r <;> exact nofun

end Breaking

/-- CORRECT: requests at times that do not go back tell a cache from an ideal one of the same
capacity (a capacity of zero counts as one) exactly when one of them is a put that breaks off. -/
theorem serveAll_eq_ideal_iff [HasId α] (capacity : Nat) (calls : List (Nat × Request α))
    (hordered : (calls.map Prod.fst).Pairwise (· ≤ ·)) :
    (withCapacity capacity : Cache α).serveAll calls =
        Ideal.serveAll (max capacity 1) [] calls ↔
      ∀ call ∈ calls, breaksOff call = false := by
  constructor
  · intro hsame call hcall
    by_contra hbreaks
    have hmem := (brokenOff_mem_serveAll_iff calls (withCapacity capacity)).2
      ⟨call, hcall, (Bool.not_eq_false _).mp hbreaks⟩
    rw [hsame] at hmem
    exact Ideal.brokenOff_not_mem_serveAll _ calls [] hmem
  · exact Follows.serveAll calls ⟨[], holds_withCapacity capacity, rfl⟩
      (fun _ _ => Nat.zero_le _) hordered

/-- A text is its own id, for the sake of the run below. -/
local instance textHasId : HasId String := ⟨fun s => s⟩

/-- Requests to a cache of capacity two: entries expire at 5 and at once, and the value `b`, which
outlives them, keeps its place until a live entry needs it. -/
def mixedTtls : List (Nat × Request String) :=
  [(0, .put "b" "1" 10), (0, .put "a" "2" 5), (3, .get "b"), (5, .put "c" "3" 0), (5, .len),
    (6, .put "d" "4" 9), (6, .getAll), (7, .put "e" "5" 9), (9, .resolveId "b"), (9, .isEmpty)]

/-- Requests to a cache of capacity one. The first entry would expire when the clock has run out. -/
def farExpiry : List (Nat × Request String) :=
  [(0, .put "a" "1" Clock.range), (0, .put "b" "2" 9), (0, .put "c" "3" 9), (0, .len)]

/-- The first run is that of an ideal cache. In the second one, after a put that breaks off, two
live entries are counted where there is room for one. -/
theorem serveAll_farExpiry :
    ((mixedTtls.map Prod.fst).Pairwise (· ≤ ·) ∧
        (withCapacity 2 : Cache String).serveAll mixedTtls = Ideal.serveAll 2 [] mixedTtls ∧
        Ideal.serveAll 2 [] mixedTtls =
          [.done, .done, .value (some "1"), .done, .count 1, .done,
            .entries [("b", "1"), ("d", "4")], .done, .id none, .flag false]) ∧
      (farExpiry.map Prod.fst).Pairwise (· ≤ ·) ∧
        (withCapacity 1 : Cache String).serveAll farExpiry =
          [.brokenOff, .done, .done, .count 2] ∧
        Ideal.serveAll 1 [] farExpiry = [.done, .done, .done, .count 1] := by
  have hordered : (mixedTtls.map Prod.fst).Pairwise (· ≤ ·) := by decide
  have hsame : (withCapacity 2 : Cache String).serveAll mixedTtls = Ideal.serveAll 2 [] mixedTtls :=
    (serveAll_eq_ideal_iff 2 mixedTtls hordered).2 (by decide)
  refine ⟨⟨hordered, hsame, ?_⟩, by decide, by decide, by decide⟩
  rw [← hsame]
  decide

end CloudInventory.Cache
