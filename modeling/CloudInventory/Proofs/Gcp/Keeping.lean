import CloudInventory.Gcp.Collector
import CloudInventory.Proofs.Cache.Stores

/-!
What it comes to when something is kept in a cache. Without a link nothing happens. With one the
item is put under it, and the job goes on if the clock can tell when the entry will expire. If not,
the job breaks off, but not before the put has made room for the link and listed it.
-/

namespace CloudInventory.Gcp

/-- A cache in which something has been kept under a link, if there is one. -/
def Setting.keeping {α : Type} (g : Setting) (link : Option String) (value : α) (c : Cache α) :
    Cache α :=
  match link.bind Text.nonEmpty with
  | some link => (c.put link value g.ttl g.now).2
  | none => c

variable {α : Type} {g : Setting} {get : Caches → Cache α} {set : Caches → Cache α → Caches}
  {link : Option String} {value : α}

theorem Setting.keeping_of_none (h : link.bind Text.nonEmpty = none) (c : Cache α) :
    g.keeping link value c = c := by
  rw [keeping, h]

theorem Setting.keeping_of_some {l : String} (h : link.bind Text.nonEmpty = some l)
    (c : Cache α) : g.keeping link value c = (c.put l value g.ttl g.now).2 := by
  rw [keeping, h]

/-- Keeping does nothing, or it changes a cache and goes on, or it changes it and breaks off. -/
theorem keep_cases (g : Setting) (get : Caches → Cache α) (set : Caches → Cache α → Caches)
    (link : Option String) (value : α) :
    (link.bind Text.nonEmpty = none ∧ keep g get set link value = pure ()) ∨
      (∃ l, link.bind Text.nonEmpty = some l ∧ Clock.tells g.now g.ttl = true ∧
        keep g get set link value = modify fun s => set s (g.keeping link value (get s))) ∨
      ∃ l, link.bind Text.nonEmpty = some l ∧ Clock.tells g.now g.ttl = false ∧
        keep g get set link value =
          (modify fun s => set s (g.keeping link value (get s))) >>= fun _ => Work.crash := by
  cases hlink : link.bind Text.nonEmpty with
  | none =>
    refine .inl ⟨rfl, ?_⟩
    rw [keep, hlink]
  | some l =>
    -- both ways the state is the one that the put leaves; whether that is the end is its answer
    have hkeep (s : Caches) : keep g get set link value s =
        if Clock.tells g.now g.ttl then .done ((), set s (g.keeping link value (get s)))
        else .crash (set s (g.keeping link value (get s))) := by
      rw [Setting.keeping_of_some hlink, ← Cache.put_fst (get s) l value g.ttl g.now, keep, hlink]
      show (if ((get s).put l value g.ttl g.now).1 then pure () else Work.crash : Step Unit) _ = _
      split <;> rfl
    refine .inr ?_
    cases htells : Clock.tells g.now g.ttl with
    | true =>
      refine .inl ⟨l, rfl, rfl, funext fun s => ?_⟩
      rw [hkeep, htells]
      rfl
    | false =>
      refine .inr ⟨l, rfl, rfl, funext fun s => ?_⟩
      rw [hkeep, htells]
      rfl

end CloudInventory.Gcp
