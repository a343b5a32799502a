import CloudInventory.Proofs.Gcp.Publish
import CloudInventory.Proofs.Gcp.Readers
import CloudInventory.Proofs.Gcp.Turns
import CloudInventory.Proofs.Program.Series

/-!
What the listings of subnetworks and of machines let be found: for each item with an id the record
that is to be published of it, whether it has a link of its own, and how it is kept under that link.
The parents of the record are what the caches show that a job finds, since no job looks into a cache
that it fills. The main lemmas say that the jobs for subnetworks and for machines publish as a
series what is found in the wanted regions: a region is wanted by the same text that its records
bear.
-/

namespace CloudInventory

/-- Something that is found, and that is in a region. -/
structure Find where
  record : Record
  /-- It has a link under which it is kept. -/
  linked : Bool
  /-- Keep it in its cache. -/
  keep : Gcp.Caches → Gcp.Caches

namespace Find

/-- The record bears one of the given regions, where an empty list stands for all. -/
def within (regions : List String) (f : Find) : Bool :=
  regions.isEmpty || regions.contains (f.record.region.getD "")

/-- Keep what is found, one after another. -/
def keepAll (fs : List Find) (s : Gcp.Caches) : Gcp.Caches := fs.foldl (fun s f => f.keep s) s

theorem keepAll_concat (fs : List Find) (f : Find) (s : Gcp.Caches) :
    keepAll (fs ++ [f]) s = f.keep (keepAll fs s) := by
  rw [keepAll, List.foldl_append]
  rfl

end Find

namespace Gcp

/-! ### What is found -/

section Finding

variable (g : Setting) (s : Caches) (project : String)

/-- What is found of a subnetwork; nothing without an id. -/
def subnetFind? (n : Subnetwork) : Option Find :=
  (n.id.bind Text.nonEmpty).map fun id =>
    { record := subnetRecord g project n id (g.found s.vpcs n.network.toList)
      linked := (n.selfLink.bind Text.nonEmpty).isSome
      keep := fun c =>
        { c with
          subnets := g.keeping n.selfLink ⟨id, n.name.getD "", project, n.regionName⟩ c.subnets } }

/-- What is found of a machine in a zone; nothing without an id. -/
def machineFind? (zone : String) (i : Instance) : Option Find :=
  (summary? project zone i).map fun v =>
    { record := machineRecord g project i v (g.found s.subnets i.subnetLinks)
      linked := (i.selfLink.bind Text.nonEmpty).isSome
      keep := fun c => { c with instances := g.keeping i.selfLink v c.instances } }

/-- What answers let be found, in any region. Networks and clusters are out of the question, and so
are machines that are only looked through. -/
def finds : (c : Call) → Answer c → List Find
  | .listNetworks _, _ => []
  | .listSubnetworks project, subnets =>
    subnets.flatMap fun n => (subnetFind? g s project n).toList
  | .listInstances project none, zones =>
    zones.flatMap fun z => z.instances.flatMap fun i => (machineFind? g s project z.zone i).toList
  | .listInstances _ (some _), _ => []
  | .listClusters _, _ => []

end Finding

/-- The series of what is found: a job breaks off where something is to be kept, and the clock
cannot tell when it will expire. -/
def series (w : World Call Answer) (g : Setting) (s : Caches) (State : List Find → Caches → Prop) :
    Series Caches Call Answer Find where
  world := w
  tell := finds g s
  record := Find.record
  stops := fun f => f.linked && !Clock.tells g.now g.ttl
  State := State

section Steps

variable {w : World Call Answer} {g : Setting} {s : Caches} {project : String}

theorem canKeep_iff {link : Option String} :
    g.CanKeep link ↔
      ((link.bind Text.nonEmpty).isSome && !Clock.tells g.now g.ttl) = false := by
  unfold Setting.CanKeep
  cases link.bind Text.nonEmpty <;> simp

theorem found_congr {α : Type} [HasId α] {c d : Cache α} (h : c.seen g.now = d.seen g.now)
    (links : List String) : g.found c links = g.found d links := by
  rw [Setting.found, (Cache.resolveAll_seen .network g.now links c).1, h, Setting.found,
    (Cache.resolveAll_seen .network g.now links d).1]

theorem seen_searched {α : Type} [HasId α] (c : Cache α) (links : List String) :
    (g.searched c links).seen g.now = c.seen g.now :=
  (Cache.resolveAll_seen .network g.now links c).2

/-! ### Subnetworks -/

/-- Subnetworks have been kept in their cache. Machines are left alone, and networks only looked
at. -/
structure KeptSubnets (g : Setting) (s : Caches) (fs : List Find) (s' : Caches) : Prop where
  subnets : s'.subnets = (Find.keepAll fs s).subnets
  instances : s'.instances = s.instances
  vpcs : s'.vpcs.seen g.now = s.vpcs.seen g.now

theorem keptSubnets_nil {s' : Caches} (h : s' = s) : KeptSubnets g s [] s' :=
  h ▸ ⟨rfl, rfl, rfl⟩

theorem publishesFound_subnet (n : Subnetwork) :
    (series w g s (KeptSubnets g s)).Publishes (publishSubnet g project n)
      (subnetFind? g s project n).toList := by
  intro done s₁ t h
  refine ensures_publishSubnet (fun hid warnings => ?_) (fun id hid hkeep => ?_)
    fun id hid hkeep => ?_
  · rw [subnetFind?, hid, Option.map_none, Option.toList_none, List.append_nil]
    exact ⟨⟨rfl, rfl⟩, h.state, h.records, h.clear⟩
  · rw [subnetFind?, hid, Option.map_some, Option.toList_some]
    refine ⟨⟨rfl, rfl⟩, ?_⟩
    rw [found_congr h.state.vpcs]
    refine Series.passed_concat h (canKeep_iff.1 hkeep) ⟨?_, h.state.instances, ?_⟩
    · rw [Find.keepAll_concat, h.state.subnets]
    · exact (seen_searched _ _).trans h.state.vpcs
  · rw [subnetFind?, hid, Option.map_some, Option.toList_some]
    refine Series.stopped_concat h (eq_true_of_ne_false (mt canKeep_iff.2 hkeep))
      ⟨?_, h.state.instances, h.state.vpcs⟩
    rw [Find.keepAll_concat, h.state.subnets]

/-- The record of a subnetwork bears the region by which it is wanted. -/
theorem subnetFind?_within {n : Subnetwork} {f : Find} (h : f ∈ (subnetFind? g s project n).toList)
    (regions : List String) : f.within regions = wantsRegion regions (n.region.getD "") := by
  obtain ⟨id, -, rfl⟩ := Option.map_eq_some_iff.1 (Option.mem_toList.1 h)
  have hname : resourceName (n.region.getD "") = n.regionName := by
    unfold Subnetwork.regionName
    cases n.region <;> rfl
  rw [Find.within, subnetRecord_region, wantsRegion, hname]
  rfl

theorem collects_subnets (project : String) :
    ((series w g s (KeptSubnets g s)).only (Find.within g.regions)).Collects (subnetsOf g project)
      (.listSubnetworks project) :=
  Series.collects_wanted (fun n => (subnetFind? g s project n).toList) (fun _ => rfl)
    (fun _ _ h => subnetFind?_within h g.regions) publishesFound_subnet

/-! ### Machines -/

/-- Machines have been kept in their cache. Networks are left alone, and subnetworks only looked
at. -/
structure KeptMachines (g : Setting) (s : Caches) (fs : List Find) (s' : Caches) : Prop where
  instances : s'.instances = (Find.keepAll fs s).instances
  vpcs : s'.vpcs = s.vpcs
  subnets : s'.subnets.seen g.now = s.subnets.seen g.now

theorem keptMachines_nil {s' : Caches} (h : s' = s) : KeptMachines g s [] s' :=
  h ▸ ⟨rfl, rfl, rfl⟩

theorem publishesFound_machine (zone : String) (i : Instance) :
    (series w g s (KeptMachines g s)).Publishes (publishInstance g project zone i)
      (machineFind? g s project zone i).toList := by
  intro done s₁ t h
  refine ensures_publishInstance (fun hid warnings => ?_) (fun v hv hkeep => ?_)
    fun v hv hkeep => ?_
  · rw [machineFind?, hid, Option.map_none, Option.toList_none, List.append_nil]
    exact ⟨⟨rfl, rfl⟩, h.state, h.records, h.clear⟩
  · rw [machineFind?, hv, Option.map_some, Option.toList_some]
    refine ⟨⟨rfl, rfl⟩, ?_⟩
    rw [found_congr h.state.subnets]
    refine Series.passed_concat h (canKeep_iff.1 hkeep) ⟨?_, h.state.vpcs, ?_⟩
    · rw [Find.keepAll_concat, h.state.instances]
    · exact (seen_searched _ _).trans h.state.subnets
  · rw [machineFind?, hv, Option.map_some, Option.toList_some]
    refine Series.stopped_concat h (eq_true_of_ne_false (mt canKeep_iff.2 hkeep))
      ⟨?_, h.state.vpcs, h.state.subnets⟩
    rw [Find.keepAll_concat, h.state.instances]

/-- The record of a machine bears the region by which its zone is wanted. -/
theorem machineFind?_within {zone : String} {i : Instance} {f : Find}
    (h : f ∈ (machineFind? g s project zone i).toList) (regions : List String) :
    f.within regions = wantsZone regions zone := by
  obtain ⟨v, hv, rfl⟩ := Option.map_eq_some_iff.1 (Option.mem_toList.1 h)
  obtain ⟨id, -, rfl⟩ := Option.map_eq_some_iff.1 hv
  rw [Find.within, machineRecord_region]
  rfl

theorem collects_machines (project : String) :
    ((series w g s (KeptMachines g s)).only (Find.within g.regions)).Collects
      (instancesOf g project) (.listInstances project none) := by
  refine Series.collects_wanted (fun z : ZoneInstances =>
    z.instances.flatMap fun i => (machineFind? g s project z.zone i).toList) (fun _ => rfl)
    (fun z f hf => ?_) fun z => Series.publishes_total fun i _ => publishesFound_machine z.zone i
  obtain ⟨i, -, hi⟩ := List.mem_flatMap.1 hf
  exact machineFind?_within hi g.regions

end Steps

end Gcp

end CloudInventory
