import CloudInventory.Proofs.Gcp.Machines

/-!
What the publishing of a cluster comes to. Its children are the machines that a search finds: those
of its location in its pools among all that the cache of machines holds, whosever they are, or, when
nothing in the cache is live, those in its pools among the machines of its own project in the zones
that the service picks. Each cluster with an id makes one record, and the search leaves in the cache
all that can be seen there.
-/

namespace CloudInventory.Gcp

/-! ### The search in a cache -/

@[simp] theorem isMember_nil (items : List MetadataItem) : isMember [] items = false := by
  unfold isMember
  split <;> rfl

theorem mem_memberIds {pools : List String} {machines : List InstanceSummary} {id : String} :
    id ∈ memberIds pools machines ↔ ∃ v ∈ machines, isMember pools v.items ∧ v.id = id := by
  simp [memberIds, and_assoc]

namespace InstanceSummary

/-- A machine is of a region and in one of the pools. -/
def Matches (region : String) (pools : List String) (v : InstanceSummary) : Prop :=
  v.region = region ∧ isMember pools v.items

end InstanceSummary

section Search

variable {now : Nat} {c : Cache InstanceSummary} {live : List (Held InstanceSummary)}
  {pools : List String}

theorem search_of_no_pools (region : String)
    (listing : Except CollectorError (List InstanceSummary)) :
    search c region [] listing now = ⟨.ok [], false, c⟩ := rfl

/-- As long as a machine is live in the cache, the cache decides. -/
theorem search_of_live (h : c.Shows now live) (hlive : live ≠ []) (hpools : pools ≠ [])
    (region : String) (listing : Except CollectorError (List InstanceSummary)) :
    search c region pools listing now =
      ⟨.ok (memberIds pools ((live.map Held.value).filter fun m => m.region = region)), false,
        (c.listing now).2⟩ := by
  have hknown : live.map Held.pair ≠ [] := mt List.map_eq_nil_iff.1 hlive
  have hvalues : (live.map Held.pair).map (·.2) = live.map Held.value := List.map_map
  have hlisting := h.listing_fst
  rw [search, cachedIds, if_neg hpools]
  generalize c.listing now = found at hlisting ⊢
  obtain ⟨_, c'⟩ := found
  obtain rfl : _ = live.map Held.pair := hlisting
  simp only [if_neg hknown, hvalues]

/-- What the search finds in the cache: the machines there that match. -/
theorem mem_memberIds_live {region id : String} :
    id ∈ memberIds pools ((live.map Held.value).filter fun m => m.region = region) ↔
      ∃ x ∈ live, x.value.Matches region pools ∧ x.value.id = id := by
  rw [mem_memberIds]
  constructor
  · rintro ⟨v, hv, hmember, hid⟩
    obtain ⟨hv, hregion⟩ := List.mem_filter.1 hv
    obtain ⟨x, hx, rfl⟩ := List.mem_map.1 hv
    exact ⟨x, hx, ⟨of_decide_eq_true hregion, hmember⟩, hid⟩
  · rintro ⟨x, hx, ⟨hregion, hmember⟩, hid⟩
    refine ⟨x.value, List.mem_filter.2 ⟨?_, decide_eq_true hregion⟩, hmember, hid⟩
    exact List.mem_map_of_mem hx

/-- When none is live, the machines have to be listed. -/
theorem search_of_not_live (h : c.Shows now []) (hpools : pools ≠ []) (region : String)
    (listing : Except CollectorError (List InstanceSummary)) :
    search c region pools listing now =
      ⟨listing.map (memberIds pools), true, (c.listing now).2⟩ := by
  have hlisting := h.listing_fst
  rw [search, cachedIds, if_neg hpools]
  generalize c.listing now = found at hlisting ⊢
  obtain ⟨_, c'⟩ := found
  obtain rfl : _ = [] := hlisting
  rfl

/-- A search leaves the cache as it is, or as a listing leaves it. -/
theorem search_cache (c : Cache InstanceSummary) (region : String) (pools : List String)
    (listing : Except CollectorError (List InstanceSummary)) (now : Nat) :
    (search c region pools listing now).cache = c ∨
      (search c region pools listing now).cache = (c.listing now).2 := by
  obtain ⟨live, h⟩ := c.exists_shows now
  by_cases hpools : pools = []
  · subst hpools
    exact .inl rfl
  by_cases hlive : live = []
  · subst hlive
    rw [search_of_not_live h hpools]
    exact .inr rfl
  · rw [search_of_live h hlive hpools]
    exact .inr rfl

theorem seen_search (c : Cache InstanceSummary) (region : String) (pools : List String)
    (listing : Except CollectorError (List InstanceSummary)) (now : Nat) :
    (search c region pools listing now).cache.seen now = c.seen now := by
  rcases search_cache c region pools listing now with hcache | hcache <;> rw [hcache]
  exact c.seen_listing now

theorem partOf_search (c : Cache InstanceSummary) (region : String) (pools : List String)
    (listing : Except CollectorError (List InstanceSummary)) (now : Nat) :
    (search c region pools listing now).cache.PartOf c := by
  rcases search_cache c region pools listing now with hcache | hcache <;> rw [hcache]
  · exact .refl c
  · exact c.partOf_listing now

end Search

/-! ### The search for a cluster -/

/-- The location that a cluster has, or else an empty one. -/
def GkeCluster.region (c : GkeCluster) : String := c.location.getD ""

/-- The call that lists the machines of a project around a cluster. -/
def GkeCluster.call (c : GkeCluster) (project : String) : Call :=
  .listInstances project (some (zoneFilter c.region))

section Publishing

variable {w : World Call Answer} {R : Caches → Session Call → Prop} {g : Setting} {project : String}
  {c : GkeCluster} {s : Caches} {t : Session Call}

/-- The search for the machines of a cluster. -/
def clusterSearch (w : World Call Answer) (g : Setting) (project : String) (c : GkeCluster)
    (s : Caches) (t : Session Call) : Search :=
  search s.instances c.region c.poolNames ((t.ask w (c.call project)).1.map (known project)) g.now

/-- What has happened once a search is over. -/
def afterSearch (w : World Call Answer) (g : Setting) (project : String) (c : GkeCluster)
    (s : Caches) (t : Session Call) : Session Call :=
  if (clusterSearch w g project c s t).listed then (t.ask w (c.call project)).2 else t

/-- The record of a cluster with the given parents and the ids of its machines. -/
def clusterRecord (g : Setting) (project : String) (c : GkeCluster) (id : String)
    (parents : List Ean) (ids : List String) : Record :=
  .compose g.emitter.stamp (Patch.typed .cluster id g.emitter.space ++
    ([.provider .gcp, .region c.region, .account project] ++ Patch.maybeName c.name ++
      [.parents parents, .children (ids.map fun id => ⟨.host, id⟩), .labels c.resourceLabels] ++
        statePatch c.status))

theorem clusterRecord_attributes (g : Setting) (project : String) (c : GkeCluster) (id : String)
    (parents : List Ean) (ids : List String) :
    (clusterRecord g project c id parents ids).account = some project ∧
    (clusterRecord g project c id parents ids).id = some id ∧
    (clusterRecord g project c id parents ids).type = some .cluster ∧
    (clusterRecord g project c id parents ids).children = ids.map fun id => ⟨.host, id⟩ := by
  rcases Patch.maybeName_cases c.name with h | ⟨s, h⟩ <;>
    rcases statePatch_cases c.status with h' | ⟨j, h'⟩ <;>
      simp [clusterRecord, Record.compose, h, h', Patch.typed, Patch.apply]

theorem clusterRecord_parents (g : Setting) (project : String) (c : GkeCluster) (id : String)
    (parents : List Ean) (ids : List String) :
    (clusterRecord g project c id parents ids).parents = parents := by
  rcases Patch.maybeName_cases c.name with h | ⟨s, h⟩ <;>
    rcases statePatch_cases c.status with h' | ⟨j, h'⟩ <;>
      simp [clusterRecord, Record.compose, h, h', Patch.typed, Patch.apply]

theorem afterSearch_records :
    (afterSearch w g project c s t).records = t.records := by
  unfold afterSearch
  split
  · exact Session.ask_records
  · rfl

theorem afterSearch_calls : t.calls <+: (afterSearch w g project c s t).calls := by
  unfold afterSearch
  split
  · exact Session.ask_calls
  · exact List.prefix_rfl

theorem ensures_clusterIds {Q : Except CollectorError (List String) → Caches → Session Call → Prop}
    (h : Q (clusterSearch w g project c s t).ids
      { s with instances := (clusterSearch w g project c s t).cache }
      (afterSearch w g project c s t)) :
    Work.Ensures w R (clusterIds g project c.region c).run s t Q := by
  unfold afterSearch clusterSearch search at h
  refine Work.ensures_attempt (Work.ensures_lift (Work.ensures_modifyGet ?_))
  dsimp only
  generalize cachedIds s.instances c.region c.poolNames g.now = found at h ⊢
  rcases found with ⟨_ | ids, cache⟩
  · refine Work.ensures_attempt (Work.ensures_ask ?_)
    dsimp only [GkeCluster.call] at h ⊢
    generalize t.ask w _ = heard at h ⊢
    rcases heard with ⟨_ | zones, t'⟩
    · exact h
    · exact Work.ensures_return h
  · exact Work.ensures_return h

theorem ensures_clusterChildren {Q : List Ean → Caches → Session Call → Prop}
    (h : ∀ warnings, Q
      (((clusterSearch w g project c s t).ids.toOption.getD []).map fun id => ⟨.host, id⟩)
      { s with instances := (clusterSearch w g project c s t).cache }
      { afterSearch w g project c s t with warnings }) :
    Work.Ensures w R (clusterChildren g project c.region c) s t Q := by
  refine Work.ensures_bind (ensures_clusterIds ?_)
  cases hids : (clusterSearch w g project c s t).ids with
  | ok ids =>
    rw [hids] at h
    exact Work.ensures_pure (h (afterSearch w g project c s t).warnings)
  | error cause =>
    rw [hids] at h
    exact Work.ensures_bind (Work.ensures_warn (Work.ensures_pure (h _)))

/-- A cluster without an id is passed over. -/
theorem ensures_publishCluster_skip (hid : c.id.bind Text.nonEmpty = none)
    {Q : Nat → Caches → Session Call → Prop} (h : ∀ warnings, Q 0 s { t with warnings }) :
    Work.Ensures w R (publishCluster g project c) s t Q := by
  rw [publishCluster, hid]
  exact Work.ensures_skip h

/-- A cluster with an id makes one record, whose children are what the search has found. -/
theorem ensures_publishCluster {id : String} (hid : c.id.bind Text.nonEmpty = some id)
    {Q : Nat → Caches → Session Call → Prop}
    (h : ∀ warnings, Q 1
      { s with
        vpcs := g.searched s.vpcs c.networkLink?.toList
        instances := (clusterSearch w g project c s t).cache }
      { afterSearch w g project c s t with
        warnings
        records := t.records ++
          [clusterRecord g project c id (g.found s.vpcs c.networkLink?.toList)
            ((clusterSearch w g project c s t).ids.toOption.getD [])] }) :
    Work.Ensures w R (publishCluster g project c) s t Q := by
  rw [publishCluster, hid]
  refine Work.ensures_bind (ensures_resolveVpc? ?_)
  refine Work.ensures_bind (ensures_clusterChildren fun warnings => ?_)
  have hpublish := h warnings
  have hrecords : (afterSearch w g project c s t).records = t.records := afterSearch_records
  rw [← hrecords] at hpublish
  exact Work.ensures_bind (Work.ensures_publish (Work.ensures_pure hpublish))

/-! ### What the children are -/

/-- What a search for the machines of a cluster finds when `live` is what is live in the cache: the
ones there that match, or else machines that the service has listed for the cluster's project. -/
inductive Finds (w : World Call Answer) (t : Session Call) (live : List (Held InstanceSummary))
    (project : String) (c : GkeCluster) (ids : List String) : Prop where
  | cached (hlive : live ≠ []) (hids : ∀ id, id ∈ ids ↔
      ∃ x ∈ live, x.value.Matches c.region c.poolNames ∧ x.value.id = id)
  | listed (hlive : live = []) (hids : ∀ id ∈ ids,
      ∃ v, Told w t v ∧ v.account = project ∧ isMember c.poolNames v.items ∧ v.id = id)

theorem Finds.later {live : List (Held InstanceSummary)} {ids : List String} {t' : Session Call}
    (h : Finds w t live project c ids) (hcalls : t.calls <+: t'.calls) :
    Finds w t' live project c ids := by
  cases h with
  | cached hlive hids => exact .cached hlive hids
  | listed hlive hids =>
    refine .listed hlive fun id hid => ?_
    obtain ⟨v, htold, hv⟩ := hids id hid
    exact ⟨v, htold.later hcalls, hv⟩

/-- Without pools nothing is found. -/
theorem finds_nil (hpools : c.poolNames = []) (live : List (Held InstanceSummary)) :
    Finds w t live project c [] := by
  by_cases hlive : live = []
  · exact .listed hlive fun id hid => absurd hid List.not_mem_nil
  · refine .cached hlive fun id => iff_of_false List.not_mem_nil ?_
    rintro ⟨x, -, ⟨-, hmember⟩, -⟩
    simp [hpools] at hmember

theorem clusterSearch_finds {live : List (Held InstanceSummary)}
    (h : s.instances.Shows g.now live) :
    Finds w (afterSearch w g project c s t) live project c
      ((clusterSearch w g project c s t).ids.toOption.getD []) := by
  unfold afterSearch clusterSearch
  by_cases hpools : c.poolNames = []
  · rw [hpools, search_of_no_pools]
    exact finds_nil hpools _
  by_cases hnone : live = []
  · subst hnone
    rw [search_of_not_live h hpools]
    refine .listed rfl fun id hid => ?_
    cases hask : (t.ask w (c.call project)).1 with
    | error e => simp [hask, Except.map, Except.toOption] at hid
    | ok zones =>
      rw [hask] at hid
      obtain ⟨v, hv, hmember, hid⟩ := mem_memberIds.1 hid
      obtain ⟨htold, haccount⟩ := told_of_known (Session.heard_of_ask hask) hv
      exact ⟨v, htold, haccount, hmember, hid⟩
  · rw [search_of_live h hnone hpools]
    exact .cached hnone fun id => mem_memberIds_live

/-- The service has listed a cluster for a project. -/
def ListedUnder (w : World Call Answer) (t : Session Call) (g : Setting) (project : String)
    (c : GkeCluster) : Prop :=
  ∃ parent ∈ clusterParents g.regions project, ∃ clusters,
    Session.Heard w t (.listClusters parent) clusters ∧ c ∈ clusters

/-- A record is that of a cluster which has been listed for one of the projects, and its children
are what a search finds. -/
def Describes (w : World Call Answer) (t : Session Call) (g : Setting)
    (live : List (Held InstanceSummary)) (r : Record) : Prop :=
  ∃ project ∈ g.projects, ∃ c id parents ids, ListedUnder w t g project c ∧ c.id = some id ∧
    Finds w t live project c ids ∧ r = clusterRecord g project c id parents ids

theorem Describes.later {live : List (Held InstanceSummary)} {r : Record} {t' : Session Call}
    (h : Describes w t g live r) (hcalls : t.calls <+: t'.calls) : Describes w t' g live r := by
  obtain ⟨project, hproject, c, id, parents, ids, ⟨parent, hparent, clusters, hheard, hc⟩, hid,
    hfinds, hr⟩ := h
  exact ⟨project, hproject, c, id, parents, ids,
    ⟨parent, hparent, clusters, hheard.later hcalls, hc⟩, hid, hfinds.later hcalls, hr⟩

/-- While clusters are published: the cache still shows what it showed, and stores nothing that
`found` does not; and every record describes a cluster. -/
structure Publishing (w : World Call Answer) (g : Setting) (found : Cache InstanceSummary)
    (live : List (Held InstanceSummary)) (s : Caches) (t : Session Call) : Prop where
  shows : s.instances.Shows g.now live
  part : s.instances.PartOf found
  records : ∀ r ∈ t.records, Describes w t g live r

namespace Publishing

variable {found : Cache InstanceSummary} {live : List (Held InstanceSummary)}

theorem ask (h : Publishing w g found live s t) (call : Call) :
    Publishing w g found live s (t.ask w call).2 where
  shows := h.shows
  part := h.part
  records := fun r hr => (h.records r (Session.ask_records ▸ hr)).later Session.ask_calls

theorem publishCluster (h : Publishing w g found live s t) (hproject : project ∈ g.projects)
    (hlisted : ListedUnder w t g project c) :
    Work.Ensures w R (publishCluster g project c) s t fun _ s' t' =>
      t.calls <+: t'.calls ∧ Publishing w g found live s' t' := by
  cases hid : c.id.bind Text.nonEmpty with
  | none => exact ensures_publishCluster_skip hid fun _ =>
      ⟨List.prefix_rfl, h.shows, h.part, fun r hr => (h.records r hr).later List.prefix_rfl⟩
  | some id =>
    refine ensures_publishCluster hid fun warnings => ⟨afterSearch_calls,
      h.shows.congr (seen_search _ _ _ _ _), (partOf_search _ _ _ _ _).trans h.part, ?_⟩
    intro r hr
    rcases List.mem_append.1 hr with hr | hr
    · exact (h.records r hr).later afterSearch_calls
    · obtain rfl := List.mem_singleton.1 hr
      obtain ⟨parent, hparent, clusters, hheard, hmem⟩ := hlisted
      exact ⟨project, hproject, c, id, _, _,
        ⟨parent, hparent, clusters, hheard.later afterSearch_calls, hmem⟩,
        Text.eq_of_bind_nonEmpty hid, (clusterSearch_finds h.shows).later List.prefix_rfl, rfl⟩

theorem clustersUnder (h : Publishing w g found live s t) (hproject : project ∈ g.projects)
    {parent : String} (hparent : parent ∈ clusterParents g.regions project) :
    Work.Ensures w R (clustersUnder g project parent).run s t
      fun _ => Publishing w g found live := by
  refine Work.ensures_askTotal (fun e _ => h.ask _) fun clusters hclusters => ?_
  have hheard := Session.heard_of_ask hclusters
  refine (Work.ensures_total (fun _ s' t' =>
    (t.ask w (.listClusters parent)).2.calls <+: t'.calls ∧ Publishing w g found live s' t') ?_
    ⟨List.prefix_rfl, h.ask _⟩).mono fun _ _ _ hI => hI.2
  rintro done c hc s₁ t₁ ⟨hcalls, h₁⟩
  have hlisted : ListedUnder w t₁ g project c :=
    ⟨parent, hparent, clusters, hheard.later hcalls, hc.subset (by simp)⟩
  exact (h₁.publishCluster hproject hlisted).mono fun _ _ _ hI => ⟨hcalls.trans hI.1, hI.2⟩

/-- The job for clusters publishes records of clusters, and what is live stays in the cache. -/
theorem scopes (h : Publishing w g found live s t) :
    Work.Ensures w R (Work.scopes (clustersOf g) g.projects).run s t fun _ =>
      Publishing w g found live := by
  refine Work.ensures_scopes (fun _ => Publishing w g found live) ?_ h
  rintro done project hproject s₁ t₁ h₁
  have hproject' : project ∈ g.projects := hproject.subset (by simp)
  refine (Work.ensures_totalAttempt (fun _ => Publishing w g found live)
    (Publishing w g found live) ?_ h₁).mono fun r s₂ t₂ hr warnings => ?_
  · rintro done' parent hparent s₂ t₂ h₂
    refine (h₂.clustersUnder hproject' (hparent.subset (by simp))).mono fun r _ _ h₃ => ?_
    cases r <;> exact h₃
  · cases r <;>
      exact ⟨hr.shows, hr.part, fun r hr' => (hr.records r hr').later List.prefix_rfl⟩

end Publishing

end Publishing

end CloudInventory.Gcp
