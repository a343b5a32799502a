import CloudInventory.Proofs.Gcp.Turns
import Mathlib.Data.List.Induction

/-!
Whose machines the children of a cluster are. A run takes jobs of passes one after another, in any
order and over any number of passes, each in a world of its own; the first one finds empty caches.
What the cache of machines stores has been listed, each machine for the project it belongs to, at
some time of the run. The search for the machines of a cluster does not ask what project they belong
to. So the main statement is this: the children of a cluster are machines of its own project exactly
when the machines of its location and its pools that are live in the cache are.
-/

namespace CloudInventory.Gcp

/-! ### What has been listed in a run -/

variable {config : GcpConfig} {ttl capacity : Nat} {us : List Turn} {u : Turn}

/-- In one of the turns the service has listed a machine for the project it belongs to. -/
def Listed (capacity : Nat) (us : List Turn) (v : InstanceSummary) : Prop :=
  ∃ front u rest, us = front ++ u :: rest ∧
    Told u.world (u.session (cachesAfter capacity front)) v

theorem Listed.concat {v : InstanceSummary} (h : Listed capacity us v) (u : Turn) :
    Listed capacity (us ++ [u]) v := by
  obtain ⟨front, u', rest, rfl, htold⟩ := h
  exact ⟨front, u', rest ++ [u], by simp, htold⟩

theorem listed_last {v : InstanceSummary}
    (h : Told u.world (u.session (cachesAfter capacity us)) v) :
    Listed capacity (us ++ [u]) v :=
  ⟨us, u, [], rfl, h⟩

/-- What the cache stores has been listed for one of the projects, its own. -/
def Sourced (config : GcpConfig) (capacity : Nat) (us : List Turn) : Prop :=
  AllStored (fun v => v.account ∈ config.projects ∧ Listed capacity us v)
    (cachesAfter capacity us).instances

theorem sourced_nil : Sourced config capacity [] := .withCapacity capacity

/-- After another turn: only the job for machines has stored any, and those it was told of. -/
theorem Sourced.concat (h : Sourced config capacity us) (hu : u.OfPass config ttl) :
    Sourced config capacity (us ++ [u]) := by
  have hlater : ∀ v, v.account ∈ config.projects ∧ Listed capacity us v →
      v.account ∈ config.projects ∧ Listed capacity (us ++ [u]) v :=
    fun v hv => ⟨hv.1, hv.2.concat u⟩
  rw [Sourced, cachesAfter_concat]
  rcases hu.type_eq with htype | htype | htype | htype
  · refine (hu.instances_told htype h).mono fun v hv => ?_
    rcases hv with hv | ⟨haccount, htold⟩
    · exact hlater v hv
    · exact ⟨haccount, listed_last htold⟩
  · rw [hu.instances_eq (.inl htype)]
    exact h.mono hlater
  · rw [hu.instances_eq (.inr htype)]
    exact h.mono hlater
  · obtain ⟨live, hlive⟩ := (cachesAfter capacity us).instances.exists_shows u.now
    exact (h.of_partOf (hu.publishing htype hlive).part).mono hlater

/-- All that is stored at any time of a run has been listed in it. -/
theorem sourced (hus : ∀ u ∈ us, u.OfPass config ttl) : Sourced config capacity us := by
  induction us using List.reverseRecOn with
  | nil => exact sourced_nil
  | append_singleton us u ih =>
    have hu : u.OfPass config ttl := hus u (List.mem_append_right _ (List.mem_singleton_self u))
    exact (ih fun v hv => hus v (List.mem_append_left _ hv)).concat hu

/-! ### Children -/

/-- An id is that of a machine which has been listed for a project and which its label places in one
of the pools of a cluster. -/
def Owned (capacity : Nat) (us : List Turn) (project : String) (c : GkeCluster) (id : String) :
    Prop :=
  ∃ v, Listed capacity us v ∧ v.account = project ∧ isMember c.poolNames v.items ∧ v.id = id

namespace Finds

variable {live : List (Held InstanceSummary)} {project : String} {c : GkeCluster}
  {ids : List String}

/-- Whatever a search finds has been listed for some project. -/
theorem owned (h : Finds u.world (u.session (cachesAfter capacity us)) live project c ids)
    (hall : ∀ x ∈ live, x.value.account ∈ config.projects ∧ Listed capacity us x.value)
    (hproject : project ∈ config.projects) :
    ∀ id ∈ ids, ∃ owner ∈ config.projects, Owned capacity (us ++ [u]) owner c id := by
  intro id hid
  cases h with
  | cached _ hids =>
    obtain ⟨x, hx, hmatch, rfl⟩ := (hids id).1 hid
    obtain ⟨howner, hlisted⟩ := hall x hx
    exact ⟨_, howner, x.value, hlisted.concat u, rfl, hmatch.2, rfl⟩
  | listed _ hids =>
    obtain ⟨v, htold, hv⟩ := hids id hid
    exact ⟨project, hproject, v, listed_last htold, hv⟩

/-- The cluster's own project owns all that a search finds if it owns all that matches in the
cache, and only then. -/
theorem owned_iff (h : Finds u.world (u.session (cachesAfter capacity us)) live project c ids) :
    (∀ id ∈ ids, Owned capacity (us ++ [u]) project c id) ↔
      ∀ x ∈ live, x.value.Matches c.region c.poolNames →
        Owned capacity (us ++ [u]) project c x.value.id := by
  cases h with
  | cached _ hids =>
    constructor
    · intro howned x hx hmatch
      exact howned _ ((hids _).2 ⟨x, hx, hmatch, rfl⟩)
    · intro howned id hid
      obtain ⟨x, hx, hmatch, rfl⟩ := (hids id).1 hid
      exact howned x hx hmatch
  | listed hlive hids =>
    refine iff_of_true (fun id hid => ?_) fun x hx => ?_
    · obtain ⟨v, htold, hv⟩ := hids id hid
      exact ⟨v, listed_last htold, hv⟩
    · exact absurd (hlive ▸ hx) List.not_mem_nil

end Finds

/-- What a record of the job for clusters describes, in terms of what a cache shows whose contents
have been listed before. -/
theorem describes_of_mem_records (hus : ∀ v ∈ us ++ [u], v.OfPass config ttl)
    (htype : u.job.type = .cluster) {r : Record}
    (hr : r ∈ (u.report (cachesAfter capacity us)).1.records) :
    ∃ live, (cachesAfter capacity us).instances.Shows u.now live ∧
      (∀ x ∈ live, x.value.account ∈ config.projects ∧ Listed capacity us x.value) ∧
      Describes u.world (u.session (cachesAfter capacity us)) (u.setting config ttl) live r := by
  have hu : u.OfPass config ttl := hus u (List.mem_append_right _ (List.mem_singleton_self u))
  have hsourced : Sourced config capacity us :=
    sourced fun v hv => hus v (List.mem_append_left _ hv)
  obtain ⟨live, hlive⟩ := (cachesAfter capacity us).instances.exists_shows u.now
  exact ⟨live, hlive, fun x hx => hsourced.lives (hlive.lives_iff.2 ⟨x, hx, rfl⟩),
    (hu.publishing htype hlive).records r hr⟩

/-- With a single project, all children are machines of it. -/
theorem children_owned_of_sole_project (hus : ∀ v ∈ us ++ [u], v.OfPass config ttl)
    (htype : u.job.type = .cluster) {project : String} (hsole : config.projects = [project])
    {r : Record} (hr : r ∈ (u.report (cachesAfter capacity us)).1.records) :
    ∃ c : GkeCluster, r.id = c.id ∧
      ∀ e ∈ r.children, Owned capacity (us ++ [u]) project c e.id := by
  have heq : ∀ p ∈ config.projects, p = project := fun p hp => by
    rw [hsole] at hp
    exact List.mem_singleton.1 hp
  obtain ⟨live, -, hall, project', hproject', c, id, parents, ids, -, hid, hfinds, rfl⟩ :=
    describes_of_mem_records hus htype hr
  obtain ⟨-, hrid, -, hchildren⟩ :=
    clusterRecord_attributes (u.setting config ttl) project' c id parents ids
  refine ⟨c, hrid.trans hid.symm, ?_⟩
  rw [hchildren, List.forall_mem_map]
  intro i hi
  obtain ⟨owner, howner, howned⟩ := hfinds.owned hall hproject' i hi
  exact heq owner howner ▸ howned

/-- CORRECT: in every run, each child of a cluster is a machine that has been listed for one of the
configured projects and that its label places in one of the cluster's pools. All of them are
machines of the cluster's own project exactly when those are that were live in the cache, at the
cluster's location and in its pools; when nothing was live there, they are. -/
theorem children_owned_iff (hus : ∀ v ∈ us ++ [u], v.OfPass config ttl)
    (htype : u.job.type = .cluster) {r : Record}
    (hr : r ∈ (u.report (cachesAfter capacity us)).1.records) :
    ∃ project ∈ config.projects, ∃ c : GkeCluster,
      ListedUnder u.world (u.session (cachesAfter capacity us)) (u.setting config ttl) project c ∧
      r.account = some project ∧ r.id = c.id ∧
      (∀ e ∈ r.children, e.kind = .host ∧
        ∃ owner ∈ config.projects, Owned capacity (us ++ [u]) owner c e.id) ∧
      ((∀ e ∈ r.children, Owned capacity (us ++ [u]) project c e.id) ↔
        ∀ v, (cachesAfter capacity us).instances.Lives u.now v →
          v.Matches c.region c.poolNames → Owned capacity (us ++ [u]) project c v.id) := by
  obtain ⟨live, hlive, hall, project, hproject, c, id, parents, ids, hlisted, hid, hfinds, rfl⟩ :=
    describes_of_mem_records hus htype hr
  obtain ⟨haccount, hrid, -, hchildren⟩ :=
    clusterRecord_attributes (u.setting config ttl) project c id parents ids
  refine ⟨project, hproject, c, hlisted, haccount, hrid.trans hid.symm, ?_, ?_⟩
  · rw [hchildren, List.forall_mem_map]
    exact fun i hi => ⟨rfl, hfinds.owned hall hproject i hi⟩
  · rw [hchildren, List.forall_mem_map]
    refine hfinds.owned_iff.trans ?_
    simp only [hlive.lives_iff]
    constructor
    · rintro howned v ⟨x, hx, rfl⟩ hmatch
      exact howned x hx hmatch
    · exact fun howned x hx hmatch => howned x.value ⟨x, hx, rfl⟩ hmatch

/-! ### A pool name of two projects -/

/-- A machine of a pool. -/
def poolMachine (id pool : String) : Instance where
  id := some id
  name := none
  selfLink := some ("machines/" ++ id)
  status := none
  labels := .empty
  networkInterfaces := []
  metadata := ⟨[⟨labelsKey, poolLabel ++ "=" ++ pool⟩]⟩

/-- A cluster with one pool. -/
def poolCluster (id location pool : String) : GkeCluster where
  id := some id
  name := none
  location := some location
  status := none
  networkConfig := none
  nodePools := [⟨some pool⟩]
  resourceLabels := .empty

/-- Two projects, of which the first has a cluster and the second a machine, at one location and in
pools of one name. -/
def sharedPool : World Call Answer where
  answer := fun _ call => match call with
    | .listInstances project _ => .ok <|
      if project = "q" then [⟨"zones/europe-west1-b", [poolMachine "7" "default-pool"]⟩] else []
    | .listClusters parent => .ok <|
      if parent = "projects/p/locations/-" then [poolCluster "1" "europe-west1" "default-pool"]
      else []
    | .listNetworks _ => .ok []
    | .listSubnetworks _ => .ok []
  signal := fun _ _ => none

/-- The two projects. -/
def twoProjects : GcpConfig := ⟨.standard, ["p", "q"], [], none⟩

/-- A turn of a pass at the beginning of the run. -/
def sharedTurn (type : AssetType) (collect : Setting → String → Try Nat) : Turn where
  stamp := .epoch
  now := 0
  job := ⟨type, "*", Work.scopes (collect (.ofConfig twoProjects 1200000 .epoch 0)) ["p", "q"]⟩
  world := sharedPool
  cancelled := false

/-- The job for machines and then the one for clusters. -/
def sharedTurns : List Turn :=
  [sharedTurn .gceInstance instancesOf] ++ [sharedTurn .cluster clustersOf]

theorem sharedTurns_ofPass : ∀ u ∈ sharedTurns, u.OfPass twoProjects 1200000 := by
  have hpass : pass twoProjects 1200000 .epoch 0 =
      [(sharedTurn .gceInstance instancesOf).job, (sharedTurn .gcpVpc vpcsOf).job,
        (sharedTurn .gcpSubnet subnetsOf).job, (sharedTurn .cluster clustersOf).job] := rfl
  intro u hu
  rcases List.mem_append.1 hu with hu | hu <;> obtain rfl := List.mem_singleton.1 hu
  · show _ ∈ pass twoProjects 1200000 .epoch 0
    rw [hpass]
    exact List.mem_cons_self
  · show _ ∈ pass twoProjects 1200000 .epoch 0
    rw [hpass]
    simp

/-- The first project has no machines. -/
theorem not_owned_sharedTurns (c : GkeCluster) (id : String) :
    ¬ Owned 8 sharedTurns "p" c id := by
  rintro ⟨v, ⟨front, u, rest, hsplit, filter, zones, ⟨k, -, -, hzones⟩, hv⟩, haccount, -⟩
  have hu : u ∈ sharedTurns := by simp [hsplit]
  have hworld : u.world = sharedPool := by
    rcases List.mem_append.1 hu with hu | hu <;> obtain rfl := List.mem_singleton.1 hu <;> rfl
  rw [hworld, haccount] at hzones
  obtain rfl : [] = zones := Except.ok.inj hzones
  simp [known] at hv

theorem child_of_another_project :
    (∀ u ∈ sharedTurns, u.OfPass twoProjects 1200000) ∧
    ∃ r ∈ ((sharedTurn .cluster clustersOf).report
        (cachesAfter 8 [sharedTurn .gceInstance instancesOf])).1.records,
      r.account = some "p" ∧ r.children = [⟨.host, "7"⟩] ∧
      (∃ c, Owned 8 sharedTurns "q" c "7") ∧ ∀ c, ¬ Owned 8 sharedTurns "p" c "7" := by
  have hrecords : (((sharedTurn .cluster clustersOf).report
      (cachesAfter 8 [sharedTurn .gceInstance instancesOf])).1.records.map
        fun r => (r.account, r.children)) = [(some "p", [⟨.host, "7"⟩])] := by decide +kernel
  obtain ⟨r, hr, he⟩ := List.mem_map.1 (hrecords ▸ List.mem_cons_self)
  obtain ⟨haccount, hchildren⟩ := Prod.mk.inj he
  obtain ⟨-, -, c, -, -, -, howned, -⟩ := children_owned_iff sharedTurns_ofPass rfl hr
  refine ⟨sharedTurns_ofPass, r, hr, haccount, hchildren, ⟨c, ?_⟩, fun c =>
    not_owned_sharedTurns c "7"⟩
  obtain ⟨-, owner, howner, howned⟩ := howned ⟨.host, "7"⟩ (by simp [hchildren])
  rcases List.mem_cons.1 howner with rfl | howner
  · exact absurd howned (not_owned_sharedTurns c "7")
  · obtain rfl := List.mem_singleton.1 howner
    exact howned

end CloudInventory.Gcp
