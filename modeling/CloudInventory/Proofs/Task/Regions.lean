import CloudInventory.Azure.Collector
import CloudInventory.Proofs.Gcp.Finds
import Mathlib.Data.List.TakeWhile

/-!
Lists of wanted regions. The tasks for machines of Azure and for subnetworks and machines of Google
Cloud find the same whatever regions are wanted, since the list plays no part in the calls, and of
what is found they publish as a series what is in a wanted region. So with a list of regions a task
publishes those records that it publishes without one and that bear one of the regions, unless it
breaks off without the list at something that the list leaves out. The main statement says exactly
when this makes a difference, and that it only happens where the clock cannot tell when entries of a
cache will expire.
-/

namespace CloudInventory

/-! ### Azure -/

namespace Azure

/-- The record of a machine with an id and a resource group. -/
def vmRecord (e : Emitter) (subscription : String) (v : VirtualMachine) (id group : String) :
    Record :=
  .compose e.stamp (Patch.typed .azureVm id e.space ++
    ([.provider .azure, .account subscription] ++ Patch.maybeName v.name ++
      [.tags v.tags, .entry "resource_group" (.str group),
        .entry "state" (.str (v.powerState?.getD ""))] ++
      v.location.toList.map .region))

theorem vmRecord_region (e : Emitter) (subscription : String) (v : VirtualMachine)
    (id group : String) : (vmRecord e subscription v id group).region = v.location := by
  rcases Patch.maybeName_cases v.name with h | ⟨s, h⟩ <;> cases hlocation : v.location <;>
    simp [vmRecord, Record.compose, h, hlocation, Patch.typed, Patch.entry, Patch.apply,
      Record.blank]

/-- What is found of a machine; nothing without an id or a resource group. -/
def vmFind? (e : Emitter) (subscription : String) (v : VirtualMachine) : Option Find :=
  v.vmId?.bind fun id => v.resourceGroup?.map fun group =>
    { record := vmRecord e subscription v id group
      linked := false
      keep := fun c => c }

/-- What answers let be found in the wanted resource group, in any region. -/
def finds (config : AzureConfig) (e : Emitter) : (c : Call) → Answer c → List Find
  | .listSubscriptions, _ => []
  | .listVms subscription, vms =>
    (vms.filter (VirtualMachine.wanted [] config.resourceGroup)).flatMap fun v =>
      (vmFind? e subscription v).toList

/-- The series of what is found. Nothing is kept, and so nothing breaks a job off. -/
def series (w : World Call Answer) (config : AzureConfig) (e : Emitter) :
    Series Unit Call Answer Find where
  world := w
  tell := finds config e
  record := Find.record
  stops := fun _ => false
  State := fun _ _ => True

section Steps

variable {w : World Call Answer} {config : AzureConfig} {e : Emitter} {subscription : String}

theorem publishesFound_vm (v : VirtualMachine) :
    (series w config e).Publishes (publishVm e subscription v)
      (vmFind? e subscription v).toList := by
  unfold publishVm vmFind?
  split
  case h_1 hid =>
    rw [hid]
    exact Series.publishes_skip _ _
  case h_2 id hid =>
    rw [hid]
    split
    case h_1 hgroup =>
      rw [hgroup]
      exact Series.publishes_skip _ _
    case h_2 group hgroup =>
      rw [hgroup]
      intro done s t h
      refine Work.ensures_bind (Work.ensures_publish (Work.ensures_pure ⟨⟨rfl, rfl⟩, ?_⟩))
      exact Series.passed_concat h rfl trivial

/-- The record of a machine bears the location by which it is wanted. -/
theorem vmFind?_within {v : VirtualMachine} {f : Find} (h : f ∈ (vmFind? e subscription v).toList)
    (regions : List String) :
    f.within regions = (regions.isEmpty || regions.contains (v.location.getD "")) := by
  obtain ⟨id, -, hgroup⟩ := Option.bind_eq_some_iff.1 (Option.mem_toList.1 h)
  obtain ⟨group, -, rfl⟩ := Option.map_eq_some_iff.1 hgroup
  rw [Find.within, vmRecord_region]

theorem filter_wanted (regions : List String) (group : Option String) (vms : List VirtualMachine) :
    vms.filter (VirtualMachine.wanted regions group) =
      (vms.filter (VirtualMachine.wanted [] group)).filter fun v =>
        regions.isEmpty || regions.contains (v.location.getD "") := by
  rw [List.filter_filter]
  refine List.filter_congr fun v _ => ?_
  simp [VirtualMachine.wanted]

theorem collects_vms (subscription : String) :
    ((series w config e).only (Find.within config.regions)).Collects (vmsOf config e subscription)
      (.listVms subscription) := by
  unfold vmsOf
  simp only [filter_wanted config.regions]
  exact Series.collects_wanted (fun v => (vmFind? e subscription v).toList) (fun _ => rfl)
    (fun _ _ h => vmFind?_within h config.regions) publishesFound_vm

/-- What is found in all subscriptions, if these are obtained. -/
def found (w : World Call Answer) (config : AzureConfig) (e : Emitter) (cancelled : Bool) :
    List Find :=
  match ((subscriptions config).run ()).run w (.start cancelled) with
  | (.result (.ok ids, _), t) => (t.asking w (ids.map .listVms)).told w (finds config e)
  | _ => []

/-- Subscriptions are obtained without anything being found. -/
theorem ensures_subscriptions {cancelled : Bool} :
    Work.Ensures w (fun _ _ => False) (subscriptions config).run () (.start cancelled)
      fun _ _ t => t.records = [] ∧ t.told w (finds config e) = [] := by
  unfold subscriptions
  split
  · refine Work.ensures_attempt (Work.ensures_checkpoint fun r => ?_)
    cases r with
    | ok _ => exact Work.ensures_return ⟨rfl, rfl⟩
    | error _ => exact ⟨rfl, rfl⟩
  · refine Work.ensures_ask ⟨Session.ask_records, ?_⟩
    rw [Session.told_ask]
    cases ((Session.start cancelled).ask w Call.listSubscriptions).1 <;> rfl

theorem ensures_collectVms {cancelled : Bool} {wanted : List Find}
    (hwanted : (found w config e cancelled).filter (Find.within config.regions) = wanted) :
    Work.Ensures w (((series w config e).only (Find.within config.regions)).Stopped wanted)
      (collectVms config e).run () (.start cancelled) fun _ =>
        ((series w config e).only (Find.within config.regions)).Passed wanted := by
  let A := (series w config e).only (Find.within config.regions)
  refine Work.ensures_attempt (((ensures_subscriptions (e := e)).and_run.weaken
    fun _ _ h => h.elim).mono ?_)
  rintro (cause | ids) _ t ⟨⟨hrecords, htold⟩, hrun⟩
  · obtain rfl : wanted = [] := by rw [← hwanted, found, hrun, List.filter_nil]
    exact Series.passed_nil trivial hrecords
  · obtain rfl : wanted = A.told (t.asking w (ids.map .listVms)) := by
      rw [← hwanted, found, hrun]
      exact (Session.told_filter _ _).symm
    have hnone : A.told t = [] := by
      show t.told w (fun c a => (finds config e c a).filter _) = []
      rw [Session.told_filter, htold, List.filter_nil]
    refine Series.ensures_scopes collects_vms ?_ ids
    rw [hnone]
    exact Series.passed_nil trivial hrecords

/-- What is found in the wanted regions is published as a series. -/
theorem publishes (w : World Call Answer) (config : AzureConfig) (e : Emitter) (scope : String)
    (cancelled : Bool) :
    ((series w config e).only (Find.within config.regions)).Reports
      ((⟨.azureVm, scope, collectVms config e⟩ : Job Unit Call Answer).report w Call.words ()
        cancelled) ((found w config e cancelled).filter (Find.within config.regions)) :=
  Series.report (j := ⟨.azureVm, scope, collectVms config e⟩) Call.words (ensures_collectVms rfl)

end Steps

end Azure

/-! ### Google Cloud -/

namespace Gcp

/-- What a task of a pass is given, but for the wanted regions: the rest of the configuration, the
time, the world, and the caches that it finds. -/
structure Round where
  config : GcpConfig
  ttl : Nat
  stamp : Instant
  now : Nat
  world : World Call Answer
  cancelled : Bool
  caches : Caches

namespace Round

variable (r : Round) (regions : List String)

/-- The configuration with a list of wanted regions. -/
def wanting : GcpConfig := { r.config with regions }

/-- What the jobs of the pass have in common. -/
def setting : Setting := .ofConfig (r.wanting regions) r.ttl r.stamp r.now

/-- A job that goes through all projects. -/
def turn (type : AssetType) (collect : String → Try Nat) : Turn where
  stamp := r.stamp
  now := r.now
  job := ⟨type, "*", Work.scopes collect r.config.projects⟩
  world := r.world
  cancelled := r.cancelled

/-- The job for subnetworks. -/
def subnets : Turn := r.turn .gcpSubnet (subnetsOf (r.setting regions))

/-- The job for machines. -/
def machines : Turn := r.turn .gceInstance (instancesOf (r.setting regions))

/-- What is found when all projects are listed in turn by some calls. -/
def found (call : String → Call) : List Find :=
  ((Session.start r.cancelled).asking r.world (r.config.projects.map call)).told r.world
    (finds (r.setting []) r.caches)

/-- What is found in the wanted regions is published as a series. -/
theorem publishes (type : AssetType) {State : List Find → Caches → Prop}
    {collect : String → Try Nat} {call : String → Call}
    (hcollect : ∀ project, ((series r.world (r.setting regions) r.caches State).only
      (Find.within regions)).Collects (collect project) (call project))
    (hstart : State [] r.caches) :
    ((series r.world (r.setting regions) r.caches State).only (Find.within regions)).Reports
      ((r.turn type collect).report r.caches)
      ((r.found call).filter (Find.within regions)) := by
  have hensures := Series.ensures_scopes hcollect (s := r.caches) (t := .start r.cancelled)
    (Series.passed_nil hstart rfl) r.config.projects
  rw [Series.told_only] at hensures
  exact Series.report (j := (r.turn type collect).job) Call.words hensures

end Round

end Gcp

/-! ### Tasks -/

/-- A task for which regions can be wanted: one for machines of Azure, or for subnetworks or
machines of Google Cloud. -/
inductive RegionalTask where
  | azure (config : AzureConfig) (stamp : Instant)
    (enabled : config.base.enables .azureVm = true) (world : World Azure.Call Azure.Answer)
    (cancelled : Bool)
  | subnets (r : Gcp.Round) (enabled : r.config.base.enables .gcpSubnet = true)
  | machines (r : Gcp.Round) (enabled : r.config.base.enables .gceInstance = true)

namespace RegionalTask

/-- The job for machines of Azure with a list of wanted regions. -/
def azureJob (config : AzureConfig) (stamp : Instant) (regions : List String) :
    Job Unit Azure.Call Azure.Answer :=
  ⟨.azureVm, config.subscriptionId.getD "*",
    Azure.collectVms { config with regions } ⟨stamp, config.base.space⟩⟩

/-- What a task does with a list of wanted regions. -/
def report : RegionalTask → List String → JobReport
  | azure config stamp _ world cancelled, regions =>
    ((azureJob config stamp regions).report world Azure.Call.words () cancelled).1
  | subnets r _, regions => ((r.subnets regions).report r.caches).1
  | machines r _, regions => ((r.machines regions).report r.caches).1

/-- This is what the job of a pass does whose configuration has that list. -/
def OfPass : RegionalTask → List String → Prop
  | azure config stamp _ _ _, regions =>
    azureJob config stamp regions ∈ Azure.pass { config with regions } stamp
  | subnets r _, regions => (r.subnets regions).OfPass (r.wanting regions) r.ttl
  | machines r _, regions => (r.machines regions).OfPass (r.wanting regions) r.ttl

theorem ofPass : ∀ (task : RegionalTask) (regions : List String), task.OfPass regions
  | azure config stamp enabled _ _, regions => by
    show _ ∈ Azure.pass _ _
    rw [Azure.pass, if_pos enabled]
    exact List.mem_singleton_self _
  | subnets r enabled, regions =>
    List.mem_filterMap.2 ⟨.gcpSubnet, List.mem_filter.2 ⟨by decide, enabled⟩, rfl⟩
  | machines r enabled, regions =>
    List.mem_filterMap.2 ⟨.gceInstance, List.mem_filter.2 ⟨by decide, enabled⟩, rfl⟩

/-- What there is to be found, in any region. -/
def found : RegionalTask → List Find
  | azure config stamp _ world cancelled =>
    Azure.found world config ⟨stamp, config.base.space⟩ cancelled
  | subnets r _ => r.found Gcp.Call.listSubnetworks
  | machines r _ => r.found fun project => .listInstances project none

/-- The clock cannot tell when entries will expire that the task keeps. -/
def untold : RegionalTask → Bool
  | azure .. => false
  | subnets r _ => !Clock.tells r.now r.ttl
  | machines r _ => !Clock.tells r.now r.ttl

/-- A task breaks off at what it cannot keep. -/
def stops (task : RegionalTask) (f : Find) : Bool := f.linked && task.untold

/-- The caches that a task leaves: they are those that it found, where `fs` have been put one after
another, and otherwise the same can be seen. A put that breaks the task off makes room for its link
and lists it, and stores nothing. -/
def Keeps : RegionalTask → List String → List Find → Prop
  | azure .., _, _ => True
  | subnets r _, regions, fs =>
    Gcp.KeptSubnets (r.setting regions) r.caches fs ((r.subnets regions).report r.caches).2.1
  | machines r _, regions, fs =>
    Gcp.KeptMachines (r.setting regions) r.caches fs ((r.machines regions).report r.caches).2.1

/-- A task has come to what it finds in the wanted regions: either it has broken off at the first
thing that it cannot keep, or it has gone through all of it. -/
structure Sifts (task : RegionalTask) (regions : List String) (wanted : List Find) : Prop where
  records : (task.report regions).records =
    (wanted.takeWhile fun f => !task.stops f).map Find.record
  ends : (∃ f rest, wanted = (wanted.takeWhile fun f => !task.stops f) ++ f :: rest ∧
        task.stops f = true ∧ (task.report regions).outcome = .panic ∧
        task.Keeps regions ((wanted.takeWhile fun f => !task.stops f) ++ [f])) ∨
    (∀ f ∈ wanted, task.stops f = false) ∧ (task.report regions).outcome ≠ .panic ∧
      task.Keeps regions wanted

theorem sifts : ∀ (task : RegionalTask) (regions : List String),
    task.Sifts regions (task.found.filter (Find.within regions))
  | azure config stamp enabled world cancelled, regions => by
    have h := Azure.publishes world { config with regions } ⟨stamp, config.base.space⟩
      (config.subscriptionId.getD "*") cancelled
    have hstops : (azure config stamp enabled world cancelled).stops = fun _ => false :=
      funext fun _ => Bool.and_false _
    refine ⟨?_, .inr ⟨fun f _ => by rw [hstops], ?_, trivial⟩⟩
    · rw [hstops]
      exact h.records
    · rcases h.ends with ⟨f, rest, -, hbroken, -⟩ | ⟨-, hends, -⟩
      · cases hbroken
      · exact hends
  | subnets r enabled, regions => by
    have h := r.publishes regions .gcpSubnet Gcp.collects_subnets (Gcp.keptSubnets_nil rfl)
    exact ⟨h.records, h.ends⟩
  | machines r enabled, regions => by
    have h := r.publishes regions .gceInstance Gcp.collects_machines (Gcp.keptMachines_nil rfl)
    exact ⟨h.records, h.ends⟩

/-! ### Lists of regions -/

/-- With a list of regions a task publishes, of what it publishes without one, just the records that
bear one of these regions. -/
def Filters (task : RegionalTask) (regions : List String) : Prop :=
  (task.report regions).records =
    (task.report []).records.filter fun r => r.region.getD "" ∈ regions

/-- What is found in the wanted regions from there on where the task breaks off without a list. -/
def late (task : RegionalTask) (regions : List String) : List Find :=
  (task.found.dropWhile fun f => !task.stops f).filter (Find.within regions)

/-- The first thing of that would not break the task off. -/
def Overtaken (task : RegionalTask) (regions : List String) : Prop :=
  ∃ f, (task.late regions).head? = some f ∧ task.stops f = false

/-- Of what there is to be found, a task only comes to things in one of the regions, to each one
once, and nothing else is put in the caches. It publishes all that it comes to, unless it breaks off
at the last thing, which it has put by then as far as that goes. -/
def Admits (task : RegionalTask) (regions : List String) : Prop :=
  ∃ published reached : List Find, reached.Sublist task.found ∧
    (∀ f ∈ reached, f.record.region.getD "" ∈ regions) ∧
    (task.report regions).records = published.map Find.record ∧
    task.Keeps regions reached ∧
    ((task.report regions).outcome ≠ .panic ∧ reached = published ∨
      (task.report regions).outcome = .panic ∧
        ∃ f, reached = published ++ [f] ∧ task.stops f = true)

section Lists

variable {task : RegionalTask} {regions : List String}

theorem within_iff (h : regions ≠ []) (f : Find) :
    f.within regions = true ↔ f.record.region.getD "" ∈ regions := by
  cases regions with
  | nil => exact absurd rfl h
  | cons _ _ => simp [Find.within]

/-- With a list there is published what it filters out of what is published without one, and then
what is found too late without it. -/
theorem records_eq (h : regions ≠ []) :
    (task.report regions).records =
      ((task.report []).records.filter fun r => r.region.getD "" ∈ regions) ++
        ((task.late regions).takeWhile fun f => !task.stops f).map Find.record := by
  have hall : task.found.filter (Find.within []) = task.found :=
    List.filter_eq_self.2 fun _ _ => rfl
  have hwithin : (fun f : Find => decide (f.record.region.getD "" ∈ regions)) =
      Find.within regions :=
    funext fun f => Bool.eq_iff_iff.2 (decide_eq_true_iff.trans (within_iff h f).symm)
  have hfilter : (task.report []).records.filter (fun r => r.region.getD "" ∈ regions) =
      ((task.found.takeWhile fun f => !task.stops f).filter (Find.within regions)).map
        Find.record := by
    rw [(task.sifts []).records, hall, List.filter_map, ← hwithin]
    rfl
  have hclear : ∀ f ∈ (task.found.takeWhile fun f => !task.stops f).filter (Find.within regions),
      (!task.stops f) = true :=
    fun f hf => List.mem_takeWhile_imp (p := fun f => !task.stops f) (List.mem_filter.1 hf).1
  rw [hfilter, (task.sifts regions).records, ← List.map_append, late,
    ← List.takeWhile_append_of_pos hclear, ← List.filter_append, List.takeWhile_append_dropWhile]

theorem filters_iff (h : regions ≠ []) : task.Filters regions ↔ ¬ task.Overtaken regions := by
  rw [Filters, records_eq h, List.append_right_eq_self, List.map_eq_nil_iff, Overtaken]
  cases task.late regions with
  | nil => simp
  | cons f _ => cases hstops : task.stops f <;> simp [hstops]

/-- Nothing is overtaken where the clock tells when entries will expire. -/
theorem untold_of_overtaken (h : task.Overtaken regions) : task.untold = true := by
  by_contra htells
  obtain ⟨f, hfirst, -⟩ := h
  have hnone : (task.found.dropWhile fun f => !task.stops f) = [] := by
    refine List.dropWhile_eq_nil_iff.2 fun f _ => ?_
    rw [stops, Bool.eq_false_iff.2 htells, Bool.and_false, Bool.not_false]
  rw [late, hnone] at hfirst
  cases hfirst

theorem admits (h : regions ≠ []) : task.Admits regions := by
  have hfound {reached : List Find}
      (hreached : reached.Sublist (task.found.filter (Find.within regions))) :
      reached.Sublist task.found ∧ ∀ f ∈ reached, f.record.region.getD "" ∈ regions :=
    ⟨hreached.trans List.filter_sublist,
      fun f hf => (within_iff h f).1 (List.mem_filter.1 (hreached.subset hf)).2⟩
  obtain ⟨hrecords, ⟨f, rest, hwanted, hstops, hpanic, hkeeps⟩ | ⟨hclear, hends, hkeeps⟩⟩ :=
    task.sifts regions
  · generalize List.takeWhile _ _ = front at hrecords hwanted hkeeps
    have hreached : front ++ [f] <+: task.found.filter (Find.within regions) :=
      ⟨rest, by rw [hwanted, List.append_assoc]; rfl⟩
    obtain ⟨hsub, hregions⟩ := hfound hreached.sublist
    exact ⟨front, _, hsub, hregions, hrecords, hkeeps, .inr ⟨hpanic, f, rfl, hstops⟩⟩
  · rw [List.takeWhile_eq_self_iff.2 fun f hf => by simp [hclear f hf]] at hrecords
    obtain ⟨hsub, hregions⟩ := hfound (List.Sublist.refl _)
    exact ⟨_, _, hsub, hregions, hrecords, hkeeps, .inl ⟨hends, rfl⟩⟩

end Lists

/-- CORRECT: with a list of regions a task publishes, of what it publishes without one, just the
records that bear one of these regions, unless it breaks off without the list and the first thing in
the regions that comes later would not break it off. That only happens where the clock cannot tell
when entries of a cache will expire. In any case what it publishes starts with those records,
nothing outside the regions is published or put in the caches, and nothing twice. -/
theorem regions_filter_iff (task : RegionalTask) {regions : List String} (h : regions ≠ []) :
    (task.Filters regions ↔ ¬ task.Overtaken regions) ∧
      (task.Overtaken regions → task.untold = true) ∧
      ((task.report []).records.filter fun r => r.region.getD "" ∈ regions) <+:
        (task.report regions).records ∧
      task.Admits regions ∧ task.OfPass regions ∧ task.OfPass [] := by
  refine ⟨filters_iff h, untold_of_overtaken, ?_, admits h, task.ofPass regions, task.ofPass []⟩
  rw [records_eq h]
  exact List.prefix_append _ _

/-! ### A region left out that breaks a task off -/

/-- There are a subnetwork with a link in one region, and one without in another. -/
def linkedElsewhere : World Gcp.Call Gcp.Answer where
  answer := fun _ call => match call with
    | .listNetworks _ => .ok []
    | .listSubnetworks _ =>
      .ok [⟨some "3", none, some "subnetworks/3", none, some "regions/us-east1"⟩,
        ⟨some "4", none, none, none, some "regions/europe-west1"⟩]
    | .listInstances _ _ => .ok []
    | .listClusters _ => .ok []
  signal := fun _ _ => none

/-- A pass with a project whose subnetworks would have to be kept for longer than the clock can
tell. -/
def linkedElsewhereRound : Gcp.Round where
  config := ⟨.standard, ["p"], [], none⟩
  ttl := Clock.range
  stamp := .epoch
  now := 0
  world := linkedElsewhere
  cancelled := false
  caches := .withCapacity 8

/-- Without a list the task breaks off at the subnetwork that a list leaves out. -/
theorem not_filters_linkedElsewhere : ∃ task : RegionalTask,
    (task.report ["europe-west1"]).records.map Record.id = [some "4"] ∧
      (task.report []).outcome = .panic ∧ (task.report []).records = [] ∧
      ¬ task.Filters ["europe-west1"] ∧ task.Overtaken ["europe-west1"] := by
  let task : RegionalTask := .subnets linkedElsewhereRound (by decide +kernel)
  have hpart : (task.report ["europe-west1"]).records.map Record.id = [some "4"] := by
    decide +kernel
  have houtcome : (task.report []).outcome = .panic := by decide +kernel
  have hwhole : (task.report []).records = [] := by decide +kernel
  have hnot : ¬ task.Filters ["europe-west1"] := by
    intro hfilters
    rw [Filters, hwhole, List.filter_nil] at hfilters
    rw [hfilters] at hpart
    cases hpart
  obtain ⟨hiff, -⟩ := regions_filter_iff task (List.cons_ne_nil "europe-west1" [])
  exact ⟨task, hpart, houtcome, hwhole, hnot, not_not.1 (mt hiff.2 hnot)⟩

end RegionalTask

end CloudInventory
