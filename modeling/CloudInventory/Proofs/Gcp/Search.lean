import CloudInventory.Proofs.Cache.Stray
import CloudInventory.Proofs.Gcp.Clusters
import CloudInventory.Proofs.Gcp.Labels

/-!
What a search for the machines of a cluster finds, in which order, and what it does to the cache.
Whether the service has to list the machines depends on what is live in the cache, not on what is
stored there. A search that the cache can answer touches all that is live, whether it matches or
not, in the order of the links; so it is the entry with the smallest link that has to go next,
unless a number strays in front that a put has left which broke off.
-/

namespace CloudInventory.Gcp

/-! ### Members of pools -/

/-- The last entry for the node pool among the labels of a machine names one of the pools. -/
def InstanceSummary.InPools (pools : List String) (v : InstanceSummary) : Prop :=
  ∃ entries, HasEntries v.items entries ∧ ∃ pool ∈ pools, LastSets entries poolLabel pool

theorem isMember_iff_inPools {pools : List String} {v : InstanceSummary} :
    isMember pools v.items = true ↔ v.InPools pools := by
  simp [InstanceSummary.InPools, hasEntries_iff, isMember_iff]

instance (pools : List String) (v : InstanceSummary) : Decidable (v.InPools pools) :=
  decidable_of_iff (isMember pools v.items = true) isMember_iff_inPools

theorem memberIds_eq (pools : List String) (machines : List InstanceSummary) :
    memberIds pools machines =
      (machines.filter fun v => v.InPools pools).map InstanceSummary.id := by
  refine congrArg (List.map _) (List.filter_congr fun v _ => ?_)
  rw [Bool.eq_iff_iff, decide_eq_true_iff, isMember_iff_inPools]

/-! ### The search as work -/

section Work

variable {w : World Call Answer} {g : Setting} {project : String} {cluster : GkeCluster}
  {s : Caches} {t : Session Call}

/-- The search for the machines of a cluster calls the service once if they have to be listed, and
otherwise not at all. -/
theorem run_clusterIds :
    ((clusterIds g project cluster.region cluster).run s).run w t =
      (.result ((clusterSearch w g project cluster s t).ids,
        { s with instances := (clusterSearch w g project cluster s t).cache }),
        afterSearch w g project cluster s t) := by
  have hensures : Work.Ensures w (fun _ _ => False)
      (clusterIds g project cluster.region cluster).run s t fun ids s' t' =>
        ids = (clusterSearch w g project cluster s t).ids ∧
        s' = { s with instances := (clusterSearch w g project cluster s t).cache } ∧
        t' = afterSearch w g project cluster s t :=
    ensures_clusterIds ⟨rfl, rfl, rfl⟩
  obtain ⟨_, _, _, hrun, rfl, rfl, rfl⟩ := hensures.exists_result
  exact hrun

end Work

/-! ### The search in a cache -/

section Search

variable {k n now : Nat} {c : Cache InstanceSummary} {live : List (Held InstanceSummary)}
  {pools : List String}

/-- As long as something can be seen in the cache, the search finds what matches of that in the
order of the links, and leaves the cache as a listing does. -/
theorem search_of_shown (h : c.Shows now live) (hpools : pools ≠ []) (hlive : live ≠ [])
    (region : String) (listing : Except CollectorError (List InstanceSummary)) :
    search c region pools listing now = ⟨.ok ((live.filter fun x =>
      x.value.region = region ∧ x.value.InPools pools).map fun x => x.value.id), false,
        (c.listing now).2⟩ := by
  rw [search_of_live h hlive hpools, memberIds_eq, List.filter_filter, List.filter_map,
    List.map_map]
  refine congrArg (fun ids => Search.mk (.ok ids) false _) ?_
  refine congrArg (List.map _) (List.filter_congr fun x _ => ?_)
  simp [Bool.and_comm]

/-- What a search leaves in the cache that has answered it: all that was live, each entry touched in
the order of the links, behind the numbers that stray. -/
structure Touched (now : Nat) (c found : Cache InstanceSummary)
    (live : List (Held InstanceSummary)) : Prop where
  stored : found.stored = c.seen now
  recency : found.recency =
    c.stray ++ ((live.map Held.link).zipIdx (c.clock + 1)).map Prod.swap

/-- The next put of a new link into a full cache without expired entries: what goes is what is
stored under the link of the first stray, or else the entry with the smallest link. So it is the
latter exactly when no stray with another link comes first. -/
structure Displaces (c found next : Cache InstanceSummary) (live : List (Held InstanceSummary))
    (link : String) : Prop where
  loses : ∀ first, (c.stray.map Prod.snd ++ live.map Held.link).head? = some first →
    found.Loses next link first
  loses_smallest_iff : ∀ x, live.head? = some x →
    (found.Loses next link x.link ↔ ∀ r, c.stray.head? = some r → r.2 = x.link)

theorem touched_listing (h : c.Shows now live) (htracks : c.Tracks k n) :
    Touched now c (c.listing now).2 live :=
  ⟨c.stored_listing now, h.recency_listing htracks⟩

theorem displaces_put (h : c.Shows now live) (htracks : c.Tracks k n) {link : String}
    (hnew : link ∉ live.map Held.link) (hfull : n ≤ live.length) {later : Nat}
    (hlater : ∀ x ∈ live, later < x.expiresAt) (value : InstanceSummary) (ttl : Nat) :
    Displaces c (c.listing now).2 ((c.listing now).2.put link value ttl later).2 live link := by
  have hloses : ∀ first, (c.stray.map Prod.snd ++ live.map Held.link).head? = some first →
      (c.listing now).2.Loses ((c.listing now).2.put link value ttl later).2 link first :=
    fun first hfirst => h.loses_put htracks hnew hfull hlater hfirst value ttl
  refine ⟨hloses, fun x hx => ?_⟩
  have hmem : x ∈ live := List.mem_of_mem_head? hx
  cases hstray : c.stray with
  | nil =>
    refine iff_of_true (hloses x.link ?_) nofun
    rw [hstray, List.map_nil, List.nil_append, List.head?_map, hx]
    rfl
  | cons r rest =>
    have hfirst := hloses r.2 (by rw [hstray]; rfl)
    constructor
    · -- the smallest is stored, so it can only be lost as the link of the stray
      intro hsmallest s hs
      obtain rfl := Option.some.inj hs
      by_contra hother
      have hne : x.link ≠ link := fun heq => hnew (heq ▸ List.mem_map_of_mem hmem)
      have hgone := hsmallest x.link hne
      rw [if_pos rfl, hfirst x.link hne, if_neg fun heq => hother heq.symm, c.stored_listing,
        h.seen_of_mem hmem] at hgone
      cases hgone
    · rintro hsame
      exact hsame r rfl ▸ hfirst

end Search

/-- CORRECT: whatever a cache has been asked before, and at whatever times, a search in it finds
what it should. Without pools it finds nothing and does nothing. As long as something is live in
the cache nothing is listed: the search finds the machines of the region whose last label names one
of the pools, in the order of the bytes of the links, and leaves all that is live touched in that
order. A new link that comes into the full cache next drives out the smallest one exactly when there
is no stray number of another link before; if there is one, what goes is what the link of the first
stray has. There are no strays when no put has broken off. When nothing is live the machines are
listed once, and those in the pools count whatever their region, in the order of the listing; an
error of the listing is the error of the search. -/
theorem search_meets (capacity : Nat) (calls : List (Nat × Cache.Request InstanceSummary))
    (now : Nat) :
    let c : Cache InstanceSummary := (Cache.withCapacity capacity).after calls
    (∃ live, c.Shows now live ∧ ∀ region pools listing,
      let found := search c region pools listing now
      (pools = [] → found.ids = .ok [] ∧ found.listed = false ∧ found.cache = c) ∧
      (pools ≠ [] → live ≠ [] →
        found.listed = false ∧
        found.ids = .ok ((live.filter fun x =>
          x.value.region = region ∧ x.value.InPools pools).map fun x => x.value.id) ∧
        Touched now c found.cache live ∧
        ∀ link value ttl later, link ∉ live.map Held.link → max capacity 1 ≤ live.length →
          (∀ x ∈ live, later < x.expiresAt) →
          Displaces c found.cache (found.cache.put link value ttl later).2 live link) ∧
      (pools ≠ [] → live = [] →
        found.listed = true ∧
        found.ids = listing.map fun machines =>
          (machines.filter fun v => v.InPools pools).map InstanceSummary.id)) ∧
    ((∀ call ∈ calls, Cache.breaksOff call = false) → c.stray = []) ∧
    ∀ (w : World Call Answer) (g : Setting) (project : String) (cluster : GkeCluster) (s : Caches)
      (t : Session Call),
      let heard := t.ask w (cluster.call project)
      let found := search c cluster.region cluster.poolNames (heard.1.map (known project)) g.now
      ((clusterIds g project cluster.region cluster).run { s with instances := c }).run w t =
        (.result (found.ids, { s with instances := found.cache }),
          if found.listed then heard.2 else t) := by
  intro c
  have htracks : c.Tracks (0 + calls.countP Cache.breaksOff) (max capacity 1) :=
    (Cache.tracks_withCapacity capacity).after calls
  obtain ⟨live, hshows⟩ := c.exists_shows now
  refine ⟨⟨live, hshows, fun region pools listing => ⟨?_, fun hpools hlive => ?_,
    fun hpools hnone => ?_⟩⟩, fun hdone => ?_, fun w g project cluster s t => run_clusterIds⟩
  · rintro rfl
    exact ⟨rfl, rfl, rfl⟩
  · rw [search_of_shown hshows hpools hlive]
    exact ⟨rfl, rfl, touched_listing hshows htracks, fun link value ttl later hnew hfull hlater =>
      displaces_put hshows htracks hnew hfull hlater value ttl⟩
  · subst hnone
    rw [search_of_not_live hshows hpools]
    exact ⟨rfl, congrArg listing.map (funext fun machines => memberIds_eq pools machines)⟩
  · have hnone : calls.countP Cache.breaksOff = 0 := List.countP_eq_zero.2 fun call hcall => by
      rw [hdone call hcall]
      exact Bool.false_ne_true
    rw [hnone] at htracks
    exact htracks.stray_eq_nil

/-! ### A search after a put that broke off -/

/-- A machine of a region whose items of labels name the given pools. -/
def nodeOf (id region : String) (pools : List String) : InstanceSummary :=
  ⟨id, region, "", pools.map fun pool => ⟨labelsKey, "a=b,c," ++ poolLabel ++ "=" ++ pool⟩⟩

/-- The machine `1` is not found, but it is touched before `2`, whose second label counts. -/
example :
    let c := (Cache.withCapacity 2).after
      [(0, .put "b" (nodeOf "2" "west" ["x", "y"]) 9), (0, .put "a" (nodeOf "1" "east" ["y"]) 9)]
    let found := search c "west" ["y"] (.error .cancelled) 1
    let later := (found.cache.put "c" (nodeOf "3" "west" ["y"]) 9 2).2
    found.listed = false ∧ found.ids.toOption = some ["2"] ∧ later.seen 2 "a" = none ∧
      (later.seen 2 "b").isSome := by
  decide

/-- A put breaks off, and another link is put in the cache. -/
def brokenThenKept : List (Nat × Cache.Request InstanceSummary) :=
  [(0, .put "a" (nodeOf "1" "west" ["y"]) Clock.range), (0, .put "b" (nodeOf "2" "west" ["y"]) 9)]

/-- After the search the cache is full, and a new link takes the place of the number of `a`; the
only link there was, `b`, stays. -/
theorem smallest_stays_brokenThenKept :
    let c := (Cache.withCapacity 1).after brokenThenKept
    let found := search c "west" ["y"] (.error .cancelled) 1
    let next := (found.cache.put "c" (nodeOf "3" "west" ["y"]) 9 2).2
    c.stray = [(1, "a")] ∧ found.listed = false ∧ found.ids.toOption = some ["2"] ∧
      found.cache.entries.keys = ["b"] ∧ ¬ found.cache.Loses next "c" "b" ∧
      next.entries.keys = ["b", "c"] := by
  intro c found next
  have hstray : c.stray = [(1, "a")] := by decide +kernel
  refine ⟨hstray, by decide +kernel, by decide +kernel, by decide +kernel, fun hloses => ?_,
    by decide +kernel⟩
  obtain ⟨⟨live, hshows, hsearch⟩, -⟩ := search_meets 1 brokenThenKept 1
  have hlinks : live.map Held.link = ["b"] := by
    rw [← hshows.keys_listing]
    decide +kernel
  have hmem : ⟨"b", nodeOf "2" "west" ["y"], 9⟩ ∈ live :=
    (hshows.mem_iff _ _ _).2 (by decide +kernel)
  obtain ⟨x, rfl, -⟩ := List.map_eq_singleton_iff.1 hlinks
  obtain rfl := List.mem_singleton.1 hmem
  obtain ⟨-, hfound, -⟩ := hsearch "west" ["y"] (.error .cancelled)
  obtain ⟨-, -, -, hdisplaces⟩ := hfound (List.cons_ne_nil _ _) (List.cons_ne_nil _ _)
  have hnext := hdisplaces "c" (nodeOf "3" "west" ["y"]) 9 2 (by decide) (Nat.le_refl 1) (by simp)
  have hsame := (hnext.loses_smallest_iff _ rfl).1 hloses (1, "a") (by rw [hstray]; rfl)
  exact absurd hsame (by decide)

end CloudInventory.Gcp
