import CloudInventory.Proofs.Gcp.Snapshots
import CloudInventory.Proofs.Gcp.Turns
import Mathlib.Data.List.Forall2

/-!
Two ways to the machines of a cluster. The cache is searched for machines whose region, which is
what stands before the last hyphen of the zone's name, is the location of the cluster. A listing is
asked for with a filter, and the service lets a zone pass when the location occurs anywhere in its
text. The first way finds no machine that the second does not. The main statement is that over a
snapshot the two find the same exactly when every machine of the pools in a zone where the location
occurs is also found in a zone of that region. A location that names a zone, one that begins the
name of another region and one that is absent all break this.
-/

namespace CloudInventory.Gcp

/-! ### What is found for a cluster -/

/-- An id is that of a machine in the pools of a cluster and in a zone of some kind. -/
def MemberIn (zones : List ZoneInstances) (c : GkeCluster) (here : String → Prop) (id : String) :
    Prop :=
  ∃ z ∈ zones, here z.zone ∧ ∃ i ∈ z.instances, isMember c.poolNames i.metadata.items ∧
    i.id = some id

section Finding

variable {g : Setting} {project : String} {zones : List ZoneInstances} {files : Snapshot}
  {capacity n : Nat} {c : GkeCluster} {s : Caches} {t : Session Call}

theorem Storable.summary? (h : Storable capacity zones) {z : ZoneInstances} (hz : z ∈ zones)
    {i : Instance} (hi : i ∈ z.instances) {id : String} (hid : i.id = some id) :
    summary? project z.zone i = some ⟨id, regionOfZone z.zone, project, i.metadata.items⟩ := by
  obtain ⟨id', hid'⟩ := h.ids i (List.mem_flatMap.2 ⟨z, hz, hi⟩)
  obtain rfl : id = id' := Option.some.inj (hid.symm.trans (Text.eq_of_bind_nonEmpty hid'))
  rw [Gcp.summary?, hid', Option.map_some]

/-- In a cache that holds all machines, those are found whose region is the location. -/
theorem memberIn_region_iff (h : Storable capacity zones) {id : String} :
    (∃ x ∈ heldOf g project zones, x.value.Matches c.region c.poolNames ∧ x.value.id = id) ↔
      MemberIn zones c (fun zone => regionOfZone zone = c.region) id := by
  constructor
  · rintro ⟨x, hx, ⟨hregion, hmember⟩, rfl⟩
    obtain ⟨z, hz, i, hi, hheld⟩ := mem_heldOf.1 hx
    obtain ⟨id, hid, hvalue⟩ := Option.map_eq_some_iff.1 (held?_value hheld)
    rw [← hvalue] at hregion hmember ⊢
    exact ⟨z, hz, hregion, i, hi, hmember, Text.eq_of_bind_nonEmpty hid⟩
  · rintro ⟨z, hz, hregion, i, hi, hmember, hid⟩
    obtain ⟨link, hlink⟩ := h.links i (List.mem_flatMap.2 ⟨z, hz, hi⟩)
    refine ⟨⟨link, ⟨id, regionOfZone z.zone, project, i.metadata.items⟩, g.now + g.ttl⟩,
      mem_heldOf.2 ⟨z, hz, i, hi, ?_⟩, ⟨hregion, hmember⟩, rfl⟩
    rw [held?, h.summary? hz hi hid, hlink]
    rfl

/-- In a listing with a cluster's filter, those are found in whose zone the location occurs. -/
theorem memberIn_filter_iff (h : Storable capacity zones) {id : String} :
    id ∈ memberIds c.poolNames
        (known project (zones.filter (Snapshot.passesFilter (some (zoneFilter c.region))))) ↔
      MemberIn zones c (fun zone => Text.occursIn c.region zone) id := by
  rw [mem_memberIds]
  constructor
  · rintro ⟨v, hv, hmember, rfl⟩
    obtain ⟨z, hz, i, hi, hsummary⟩ := mem_known.1 hv
    obtain ⟨hz, hpass⟩ := List.mem_filter.1 hz
    obtain ⟨id, hid, rfl⟩ := Option.map_eq_some_iff.1 hsummary
    rw [Snapshot.passesFilter_zoneFilter] at hpass
    exact ⟨z, hz, hpass, i, hi, hmember, Text.eq_of_bind_nonEmpty hid⟩
  · rintro ⟨z, hz, hoccurs, i, hi, hmember, hid⟩
    have hpass : Snapshot.passesFilter (some (zoneFilter c.region)) z = true := by
      rw [Snapshot.passesFilter_zoneFilter]
      exact hoccurs
    exact ⟨_, mem_known.2 ⟨z, List.mem_filter.2 ⟨hz, hpass⟩, i, hi, h.summary? hz hi hid⟩,
      hmember, rfl⟩

/-- What the search finds in a cache of all machines. -/
theorem clusterSearch_filled (h : Storable capacity zones) {live : List (Held InstanceSummary)}
    (hshows : s.instances.Shows g.now live) (hlive : live.Perm (heldOf g project zones))
    (hsome : live ≠ []) (id : String) :
    id ∈ (clusterSearch (calmWorld files) g project c s t).ids.toOption.getD [] ↔
      MemberIn zones c (fun zone => regionOfZone zone = c.region) id := by
  have hfinds : Finds (calmWorld files) _ _ project c _ := clusterSearch_finds (t := t) hshows
  cases hfinds with
  | cached _ hids =>
    refine (hids id).trans ?_
    simp only [hlive.mem_iff]
    exact memberIn_region_iff h
  | listed hnone _ => exact absurd hnone hsome

/-- What the search finds when the cache shows nothing. -/
theorem clusterSearch_empty (h : Storable capacity zones)
    (hzones : files.gcp (.listInstances project none) = .ok zones) (hgo : t.cancelled = false)
    (hempty : s.instances.Shows g.now []) (id : String) :
    id ∈ (clusterSearch (calmWorld files) g project c s t).ids.toOption.getD [] ↔
      MemberIn zones c (fun zone => Text.occursIn c.region zone) id := by
  by_cases hpools : c.poolNames = []
  · rw [clusterSearch, hpools, search_of_no_pools]
    refine iff_of_false List.not_mem_nil ?_
    rintro ⟨z, -, -, i, -, hmember, -⟩
    simp [hpools] at hmember
  · let passing := zones.filter (Snapshot.passesFilter (some (zoneFilter c.region)))
    have hanswer : files.gcp (c.call project) = .ok passing := Snapshot.gcp_listInstances hzones _
    have hask : (t.ask (calmWorld files) (c.call project)).1.map (known project) =
        .ok (known project passing) := by
      rw [ask_calmWorld files hgo, hanswer]
      rfl
    rw [clusterSearch, search_of_not_live hempty hpools, hask]
    exact memberIn_filter_iff h

end Finding

/-! ### The job for clusters -/

/-- The clusters that have an id, which are the ones that records are made of. -/
def identified (clusters : List GkeCluster) : List GkeCluster :=
  clusters.filter fun c => (c.id.bind Text.nonEmpty).isSome

/-- A record is that of a cluster, and its children are the machines with a property. -/
def HasChildren (P : GkeCluster → String → Prop) (c : GkeCluster) (r : Record) : Prop :=
  r.id = c.id ∧ ∀ e, e ∈ r.children ↔ e.kind = .host ∧ P c e.id

section Publishing

variable {g : Setting} {project : String} {files : Snapshot}
  {R : Caches → Session Call → Prop} {live : List (Held InstanceSummary)}
  {P : GkeCluster → String → Prop} {s : Caches} {t : Session Call}

/-- While clusters are published over a snapshot. -/
structure CalmPublishing (g : Setting) (live : List (Held InstanceSummary))
    (P : GkeCluster → String → Prop) (done : List GkeCluster) (s : Caches) (t : Session Call) :
    Prop where
  shows : s.instances.Shows g.now live
  going : t.cancelled = false
  records : List.Forall₂ (HasChildren P) (identified done) t.records

theorem afterSearch_calm {c : GkeCluster} (hgo : t.cancelled = false) :
    (afterSearch (calmWorld files) g project c s t).cancelled = false := by
  unfold afterSearch
  split
  · rw [ask_calmWorld files hgo]
    exact hgo
  · exact hgo

theorem hasChildren_clusterRecord {c : GkeCluster} {id : String} (hid : c.id = some id)
    (parents : List Ean) {ids : List String} (hids : ∀ i, i ∈ ids ↔ P c i) :
    HasChildren P c (clusterRecord g project c id parents ids) := by
  obtain ⟨-, hrid, -, hchildren⟩ := clusterRecord_attributes g project c id parents ids
  refine ⟨hrid.trans hid.symm, fun e => ?_⟩
  rw [hchildren, List.mem_map]
  constructor
  · rintro ⟨i, hi, rfl⟩
    exact ⟨rfl, (hids i).1 hi⟩
  · rintro ⟨hkind, hP⟩
    exact ⟨e.id, (hids _).2 hP, by rw [← hkind]⟩

theorem CalmPublishing.publishCluster {done : List GkeCluster}
    (h : CalmPublishing g live P done s t) {c : GkeCluster}
    (hids : ∀ id, id ∈ (clusterSearch (calmWorld files) g project c s t).ids.toOption.getD [] ↔
      P c id) :
    Work.Ensures (calmWorld files) R (publishCluster g project c) s t fun _ =>
      CalmPublishing g live P (done ++ [c]) := by
  have hconcat : identified (done ++ [c]) =
      identified done ++ if (c.id.bind Text.nonEmpty).isSome then [c] else [] := by
    simp [identified, List.filter_cons]
  cases hid : c.id.bind Text.nonEmpty with
  | none =>
    rw [hid] at hconcat
    refine ensures_publishCluster_skip hid fun _ => ⟨h.shows, h.going, ?_⟩
    rw [hconcat]
    exact (List.append_nil _).symm ▸ h.records
  | some id =>
    rw [hid] at hconcat
    refine ensures_publishCluster hid fun warnings =>
      ⟨h.shows.congr (seen_search _ _ _ _ _), afterSearch_calm h.going, ?_⟩
    rw [hconcat]
    exact List.rel_append h.records
      (.cons (hasChildren_clusterRecord (Text.eq_of_bind_nonEmpty hid) _ hids) .nil)

/-- The job for clusters over a snapshot, for a single project and all regions: a record for each
cluster with an id, whose children are what the search finds. -/
theorem ensures_clustersOf_calm (hregions : g.regions = []) {clusters : List GkeCluster}
    (hclusters : files.gcp (.listClusters ("projects/" ++ project ++ "/locations/-")) =
      .ok clusters)
    (hids : ∀ c (s : Caches) (t : Session Call), s.instances.Shows g.now live →
      t.cancelled = false → ∀ id,
        id ∈ (clusterSearch (calmWorld files) g project c s t).ids.toOption.getD [] ↔ P c id)
    (hshows : s.instances.Shows g.now live) :
    Work.Ensures (calmWorld files) R (Work.scopes (clustersOf g) [project]).run s (.start false)
      fun _ _ t' => List.Forall₂ (HasChildren P) (identified clusters) t'.records := by
  have hparents : clusterParents g.regions project =
      ["projects/" ++ project ++ "/locations/-"] := by
    rw [hregions]
    show ["projects/" ++ project ++ "/locations/" ++ "-"] = _
    rw [String.append_assoc]
    rfl
  have hask := ask_calmWorld files (t := .start false) rfl
    (.listClusters ("projects/" ++ project ++ "/locations/-"))
  refine Work.ensures_scopes_singleton ?_
  rw [clustersOf, hparents]
  refine Work.ensures_totalAttempt_singleton ?_
  refine Work.ensures_askTotal (fun e he => ?_) fun clusters' hclusters' => ?_
  · rw [hask, hclusters] at he
    cases he
  rw [hask, hclusters] at hclusters'
  obtain rfl := Except.ok.inj hclusters'
  refine (Work.ensures_total (CalmPublishing g live P) ?_ ?_).mono
    fun _ _ _ h warnings => h.records
  · rintro done c - s₁ t₁ h
    exact h.publishCluster (hids c s₁ t₁ h.shows h.going)
  · rw [hask]
    exact ⟨hshows, rfl, .nil⟩

end Publishing

/-! ### Both ways -/

theorem forall₂_zip_right {α β γ : Type} {S : α → β → Prop} {T : α → γ → Prop} :
    ∀ {as : List α} {bs : List β} {cs : List γ}, List.Forall₂ S as bs → List.Forall₂ T as cs →
      List.Forall₂ (fun a p => S a p.1 ∧ T a p.2) as (bs.zip cs)
  | _, _, _, .nil, .nil => .nil
  | _, _, _, .cons hs hss, .cons ht hts => .cons ⟨hs, ht⟩ (forall₂_zip_right hss hts)

/-- Of two records of a cluster, one of which has the machines with a stronger property for
children: they have the same children exactly if no machine has the weaker one alone. -/
theorem HasChildren.agree {P Q : GkeCluster → String → Prop} {c : GkeCluster} {r r' : Record}
    (hPQ : ∀ id, P c id → Q c id) (h : HasChildren P c r) (h' : HasChildren Q c r') :
    r.children ⊆ r'.children ∧
      ((∀ e, e ∈ r.children ↔ e ∈ r'.children) ↔ ∀ id, Q c id → P c id) := by
  refine ⟨fun e he => ?_, fun hsame id hid => ?_, fun hall e => ?_⟩
  · obtain ⟨hkind, hid⟩ := (h.2 e).1 he
    exact (h'.2 e).2 ⟨hkind, hPQ e.id hid⟩
  · have he : ⟨.host, id⟩ ∈ r.children := (hsame _).2 ((h'.2 ⟨.host, id⟩).2 ⟨rfl, hid⟩)
    exact ((h.2 _).1 he).2
  · rw [h.2, h'.2]
    exact and_congr_right fun _ => ⟨hPQ e.id, hall e.id⟩

/-- A job that is run over a snapshot, with nothing to disturb it. -/
def calmTurn (files : Snapshot) (stamp : Instant) (now : Nat) (job : Job Caches Call Answer) :
    Turn := ⟨stamp, now, job, calmWorld files, false⟩

/-- The caches that a job over a snapshot leaves. -/
def calmCaches (files : Snapshot) (stamp : Instant) (now : Nat) (job : Job Caches Call Answer)
    (s : Caches) : Caches := ((calmTurn files stamp now job).report s).2.1

/-- The records that a job over a snapshot publishes. -/
def calmRecords (files : Snapshot) (stamp : Instant) (now : Nat) (job : Job Caches Call Answer)
    (s : Caches) : List Record := ((calmTurn files stamp now job).report s).1.records

section Agreement

variable {config : GcpConfig} {ttl capacity now : Nat} {stamp : Instant} {files : Snapshot}
  {project : String} {zones : List ZoneInstances} {clusters : List GkeCluster} {s : Caches}
  {machinesJob clustersJob : Job Caches Call Answer}

/-- After the job for machines an empty cache holds all of them, unless the job has broken off and
nothing is stored. -/
theorem holds_filled (hprojects : config.projects = [project]) (hregions : config.regions = [])
    (hzones : files.gcp (.listInstances project none) = .ok zones)
    (hstorable : Storable capacity zones) (hjob : machinesJob ∈ pass config ttl stamp now)
    (htype : machinesJob.type = .gceInstance) (hempty : s.instances = .withCapacity capacity) :
    AllStored (fun _ => False) (calmCaches files stamp now machinesJob s).instances ∨
      (calmCaches files stamp now machinesJob s).instances.Holds (max capacity 1)
        (heldOf (.ofConfig config ttl stamp now) project zones) := by
  have hu : (calmTurn files stamp now machinesJob).OfPass config ttl := hjob
  have hholds : s.instances.Holds (max capacity 1) [] := by
    rw [hempty]
    exact Cache.holds_withCapacity capacity
  let filled : Caches → Session Call → Prop := fun s' _ =>
    AllStored (fun _ => False) s'.instances ∨
      s'.instances.Holds (max capacity 1) (heldOf (.ofConfig config ttl stamp now) project zones)
  have hwork : Work.Ensures (calmWorld files)
      (fun s' _ => AllStored (fun _ => False) s'.instances)
      (Work.scopes (instancesOf (.ofConfig config ttl stamp now)) [project]).run s (.start false)
      fun _ => filled :=
    Work.ensures_scopes_singleton ((ensures_instancesOf_calm hregions hzones hstorable
      (Nat.le_max_left _ _) rfl hholds).mono fun _ _ _ h warnings => .inr h)
  rw [← hprojects] at hwork
  have hcollect : workIn? (.ofConfig config ttl stamp now) machinesJob.type =
      some (instancesOf (.ofConfig config ttl stamp now)) := by
    rw [htype]
    rfl
  exact hu.after hcollect hwork fun _ _ => .inl

/-- What the records of the job for clusters are. -/
theorem records_calm (hprojects : config.projects = [project]) (hregions : config.regions = [])
    (hclusters : files.gcp (.listClusters ("projects/" ++ project ++ "/locations/-")) =
      .ok clusters)
    (hjob : clustersJob ∈ pass config ttl stamp now) (htype : clustersJob.type = .cluster)
    {live : List (Held InstanceSummary)} {P : GkeCluster → String → Prop}
    (hshows : s.instances.Shows now live)
    (hids : ∀ c (s : Caches) (t : Session Call), s.instances.Shows now live →
      t.cancelled = false → ∀ id,
        id ∈ (clusterSearch (calmWorld files) (.ofConfig config ttl stamp now) project c s
          t).ids.toOption.getD [] ↔ P c id) :
    List.Forall₂ (HasChildren P) (identified clusters)
      (calmRecords files stamp now clustersJob s) := by
  have hu : (calmTurn files stamp now clustersJob).OfPass config ttl := hjob
  have hwork : Work.Ensures (calmWorld files) (fun _ _ => False)
      (Work.scopes (clustersOf (.ofConfig config ttl stamp now)) [project]).run s (.start false)
      fun _ _ t' => List.Forall₂ (HasChildren P) (identified clusters) t'.records :=
    ensures_clustersOf_calm hregions hclusters hids hshows
  rw [← hprojects] at hwork
  have hcollect : workIn? (.ofConfig config ttl stamp now) clustersJob.type =
      some (clustersOf (.ofConfig config ttl stamp now)) := by
    rw [htype]
    rfl
  exact hu.after hcollect hwork fun _ _ h => h.elim

/-- Entries that are stored at one time are all live as long as one of them is. -/
theorem left_heldOf_of_ne_nil {g : Setting}
    (hsome : Held.left g.now (heldOf g project zones) ≠ []) :
    Held.left g.now (heldOf g project zones) = heldOf g project zones := by
  have hexpires : ∀ x ∈ heldOf g project zones, x.expiresAt = g.now + g.ttl := by
    intro x hx
    obtain ⟨z, -, i, -, hheld⟩ := mem_heldOf.1 hx
    exact held?_expiresAt hheld
  obtain ⟨x, hx⟩ := List.exists_mem_of_ne_nil _ hsome
  obtain ⟨hx, hlive⟩ := Held.mem_left.1 hx
  refine Held.left_eq_self fun y hy => ?_
  rw [hexpires y hy, ← hexpires x hx]
  exact hlive

/-- A machine in a zone of a region is in a zone where the region occurs. -/
theorem MemberIn.occurs {c : GkeCluster} {id : String}
    (h : MemberIn zones c (fun zone => regionOfZone zone = c.region) id) :
    MemberIn zones c (fun zone => Text.occursIn c.region zone) id := by
  obtain ⟨z, hz, hregion, hi⟩ := h
  exact ⟨z, hz, hregion ▸ occursIn_regionOfZone z.zone, hi⟩

/-- CORRECT: over a snapshot, a cluster's children from a cache that holds all machines are among
its children from a listing, and they are the same exactly when every machine of its pools in a zone
where its location occurs is also one in a zone of that region. Clusters without an id aside, there
is a record for each cluster both ways. -/
theorem children_agree_iff (hprojects : config.projects = [project])
    (hregions : config.regions = [])
    (hzones : files.gcp (.listInstances project none) = .ok zones)
    (hclusters : files.gcp (.listClusters ("projects/" ++ project ++ "/locations/-")) =
      .ok clusters)
    (hstorable : Storable capacity zones)
    (hmachines : machinesJob ∈ pass config ttl stamp now)
    (hmachinesType : machinesJob.type = .gceInstance)
    (hclustersJob : clustersJob ∈ pass config ttl stamp now)
    (hclustersType : clustersJob.type = .cluster)
    (hempty : s.instances = .withCapacity capacity)
    {filled : Caches} (hfill : calmCaches files stamp now machinesJob s = filled)
    (hfilled : filled.instances.isEmpty now = false) :
    (calmRecords files stamp now clustersJob filled).length =
      (calmRecords files stamp now clustersJob s).length ∧
    List.Forall₂
      (fun c r => r.1.id = c.id ∧ r.2.id = c.id ∧ r.1.children ⊆ r.2.children ∧
        ((∀ e, e ∈ r.1.children ↔ e ∈ r.2.children) ↔
          ∀ id, MemberIn zones c (fun zone => Text.occursIn c.region zone) id →
            MemberIn zones c (fun zone => regionOfZone zone = c.region) id))
      (identified clusters)
      ((calmRecords files stamp now clustersJob filled).zip
        (calmRecords files stamp now clustersJob s)) := by
  subst hfill
  have hholds : (calmCaches files stamp now machinesJob s).instances.Holds (max capacity 1)
      (heldOf (.ofConfig config ttl stamp now) project zones) := by
    refine (holds_filled hprojects hregions hzones hstorable hmachines hmachinesType
      hempty).resolve_left fun hnone => ?_
    rw [hnone.isEmpty now] at hfilled
    cases hfilled
  have hshows := hholds.shows now
  have hsome := hshows.ne_nil_iff.2 hfilled
  have hperm : (Held.sorted (Held.left now (heldOf (.ofConfig config ttl stamp now) project
      zones))).Perm (heldOf (.ofConfig config ttl stamp now) project zones) := by
    refine (Held.sorted_perm _).trans (.of_eq ?_)
    exact left_heldOf_of_ne_nil (g := .ofConfig config ttl stamp now)
      (mt Held.sorted_eq_nil_iff.2 hsome)
  have hcached : List.Forall₂
      (HasChildren fun c id => MemberIn zones c (fun zone => regionOfZone zone = c.region) id)
      (identified clusters)
      (calmRecords files stamp now clustersJob (calmCaches files stamp now machinesJob s)) :=
    records_calm hprojects hregions hclusters hclustersJob hclustersType hshows
      fun c s t hshows _ id => clusterSearch_filled hstorable hshows hperm hsome id
  have hnone : s.instances.Shows now [] := by
    rw [hempty]
    exact Cache.shows_withCapacity capacity now
  have hlisted : List.Forall₂
      (HasChildren fun c id => MemberIn zones c (fun zone => Text.occursIn c.region zone) id)
      (identified clusters) (calmRecords files stamp now clustersJob s) :=
    records_calm hprojects hregions hclusters hclustersJob hclustersType hnone
      fun c s t hshows hgo id => clusterSearch_empty hstorable hzones hgo hshows id
  refine ⟨hcached.length_eq.symm.trans hlisted.length_eq,
    (forall₂_zip_right hcached hlisted).imp fun c r h => ?_⟩
  obtain ⟨hsub, hsame⟩ := HasChildren.agree (fun _ => MemberIn.occurs) h.1 h.2
  exact ⟨h.1.1, h.2.1, hsub, hsame⟩

end Agreement

/-! ### A cluster in one zone -/

/-- A project with a cluster in a single zone and a machine of its pool there. -/
def zonalFiles : Snapshot where
  files := .ofList
    [("gcp/p/instances.json",
        "[[\"zones/europe-west1-b\",[[\"7\",null,\"machines/7\",null,\x7b\x7d,[]," ++
          "[[[\"kube-labels\",\"cloud.google.com/gke-nodepool=a\"]]]]]]]"),
      ("gcp/p/clusters.json", "[[\"1\",null,\"europe-west1-b\",null,null,[[\"a\"]],\x7b\x7d]]")]
  directories := [["gcp"], ["gcp", "p"]]

/-- The listing of its machines. -/
def zonalZones : List ZoneInstances :=
  [⟨"zones/europe-west1-b", [⟨some "7", none, some "machines/7", none, .empty, [],
    ⟨[⟨labelsKey, poolLabel ++ "=a"⟩]⟩⟩]⟩]

/-- Its cluster. -/
def zonalCluster : GkeCluster :=
  ⟨some "1", none, some "europe-west1-b", none, none, [⟨some "a"⟩], .empty⟩

/-- The project, with all its regions. -/
def soleProject : GcpConfig := ⟨.standard, ["p"], [], none⟩

/-- A job of a pass over the project. -/
def zonalJob (type : AssetType) (collect : Setting → String → Try Nat) : Job Caches Call Answer :=
  ⟨type, "*", Work.scopes (collect (.ofConfig soleProject 1200000 .epoch 0)) ["p"]⟩

/-- What the cache holds once the machines are in it. -/
def zonalCaches : Caches :=
  calmCaches zonalFiles .epoch 0 (zonalJob .gceInstance instancesOf) (.withCapacity 8)

/-- The records of the cluster, beginning with given caches. -/
def zonalRecords (s : Caches) : List Record :=
  calmRecords zonalFiles .epoch 0 (zonalJob .cluster clustersOf) s

theorem gcp_zonalZones : zonalFiles.gcp (.listInstances "p" none) = .ok zonalZones := by
  decide +kernel

theorem gcp_zonalCluster :
    zonalFiles.gcp (.listClusters ("projects/" ++ "p" ++ "/locations/-")) = .ok [zonalCluster] := by
  decide +kernel

theorem storable_zonalZones : Storable 8 zonalZones := by
  refine ⟨?_, ?_, by decide, by decide⟩ <;> intro i hi <;> obtain rfl := List.mem_singleton.1 hi
  · exact ⟨"7", rfl⟩
  · exact ⟨"machines/7", rfl⟩

theorem pass_soleProject : pass soleProject 1200000 .epoch 0 =
    [zonalJob .gceInstance instancesOf, zonalJob .gcpVpc vpcsOf, zonalJob .gcpSubnet subnetsOf,
      zonalJob .cluster clustersOf] := rfl

/-- The machine is in a zone where the location of the cluster occurs. -/
theorem zonal_memberIn_filter :
    MemberIn zonalZones zonalCluster (fun zone => Text.occursIn zonalCluster.region zone) "7" := by
  have hoccurs : Text.occursIn zonalCluster.region "zones/europe-west1-b" = true := by
    decide +kernel
  have hmember : isMember zonalCluster.poolNames [⟨labelsKey, poolLabel ++ "=a"⟩] = true := by
    decide +kernel
  exact ⟨_, List.mem_cons_self, hoccurs, _, List.mem_cons_self, hmember, rfl⟩

/-- It is in no zone of a region of that name. -/
theorem zonal_not_memberIn_region :
    ¬ MemberIn zonalZones zonalCluster (fun zone => regionOfZone zone = zonalCluster.region)
      "7" := by
  have hregion : regionOfZone "zones/europe-west1-b" ≠ zonalCluster.region := by decide +kernel
  rintro ⟨z, hz, hsame, -⟩
  obtain rfl := List.mem_singleton.1 hz
  exact hregion hsame

theorem zonal_children_disagree :
    Storable 8 zonalZones ∧ zonalCaches.instances.isEmpty 0 = false ∧
      ∃ r, (zonalRecords zonalCaches).zip (zonalRecords (.withCapacity 8)) = [r] ∧
        r.1.id = some "1" ∧ r.2.id = some "1" ∧ ¬ ∀ e, e ∈ r.1.children ↔ e ∈ r.2.children := by
  have hfilled : zonalCaches.instances.isEmpty 0 = false := by decide +kernel
  have hmachines : zonalJob .gceInstance instancesOf ∈ pass soleProject 1200000 .epoch 0 := by
    simp [pass_soleProject]
  have hclustersJob : zonalJob .cluster clustersOf ∈ pass soleProject 1200000 .epoch 0 := by
    simp [pass_soleProject]
  obtain ⟨-, hchildren⟩ := children_agree_iff rfl rfl gcp_zonalZones gcp_zonalCluster
    storable_zonalZones hmachines rfl hclustersJob rfl rfl rfl hfilled
  obtain ⟨r, rest, ⟨hid₁, hid₂, -, hagree⟩, hrest, hzip⟩ := List.forall₂_cons_left_iff.1 hchildren
  obtain rfl := List.forall₂_nil_left_iff.1 hrest
  refine ⟨storable_zonalZones, hfilled, r, hzip, hid₁, hid₂, fun hsame => ?_⟩
  exact zonal_not_memberIn_region (hagree.1 hsame "7" zonal_memberIn_filter)

end CloudInventory.Gcp
