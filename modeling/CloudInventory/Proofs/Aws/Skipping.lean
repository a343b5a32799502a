import CloudInventory.Proofs.Aws.Chains
import CloudInventory.Proofs.Aws.Limits
import CloudInventory.Proofs.Program.Skipping

/-!
Items of Amazon that are skipped. Machines, networks and subnets are published straight from the
listing. A cluster is only listed by its name and has to be described by calls of its own first, so
that one more cluster moves the calls for those after it. When all its own calls succeed and the
others are answered as if it were not there, then this makes no difference but for the warning that
it has no ARN.
-/

namespace CloudInventory.Aws

/-! ### Listings -/

/-- Something that is published. -/
inductive Item where
  | machine (owner : Option String) (i : Instance)
  | vpc (v : Vpc)
  | subnet (s : Subnet)
  | cluster (c : EksCluster × List Ean)

namespace Item

def type : Item → AssetType
  | machine _ _ => .ec2Instance
  | vpc _ => .awsVpc
  | subnet _ => .awsSubnet
  | cluster _ => .cluster

/-- The field that has the id. -/
def idField : Item → String
  | machine _ _ => "InstanceId"
  | vpc _ => "VpcId"
  | subnet _ => "SubnetId"
  | cluster _ => "arn"

/-- The id, unless it is empty. -/
def id? : Item → Option String
  | machine _ i => i.instanceId.bind Text.nonEmpty
  | vpc v => v.vpcId.bind Text.nonEmpty
  | subnet s => s.subnetId.bind Text.nonEmpty
  | cluster c => c.1.arn.bind Text.nonEmpty

end Item

/-- What is listed in full. -/
def catalogue : Catalogue Call Answer Item where
  items
    | .describeInstances _, reservations =>
      reservations.flatMap fun r => r.instances.map (.machine r.ownerId)
    | .describeVpcs _, vpcs => vpcs.map .vpc
    | .describeSubnets _, subnets => subnets.map .subnet
    | .listClusters _, _ | .describeCluster _ _, _ | .listNodegroups _ _, _
    | .describeNodegroup _ _ _, _ | .describeAutoScalingGroups _ _, _ => []
  type := Item.type
  lacks i := Catalogue.blank i.idField i.id?
  stops _ := false

/-- Publish an item. -/
def publishItem (e : Emitter) (region : String) : Item → Step Nat
  | .machine owner i => publishInstance e region owner i
  | .vpc v => publishVpc e region v
  | .subnet s => publishSubnet e region s
  | .cluster c => publishCluster e region c

variable {e : Emitter} {region : String}

theorem publishItem_of_none {i : Item} (h : i.id? = none) :
    publishItem e region i = Emitter.skip i.type i.idField := by
  cases i with
  | machine owner i =>
    have hid : i.instanceId.bind Text.nonEmpty = none := h
    simp only [publishItem, publishInstance, hid, Item.type, Item.idField]
  | vpc v =>
    have hid : v.vpcId.bind Text.nonEmpty = none := h
    simp only [publishItem, publishVpc, hid, Item.type, Item.idField]
  | subnet s =>
    have hid : s.subnetId.bind Text.nonEmpty = none := h
    simp only [publishItem, publishSubnet, hid, Item.type, Item.idField]
  | cluster c =>
    have hid : c.1.arn.bind Text.nonEmpty = none := h
    simp only [publishItem, publishCluster, hid, Item.type, Item.idField]

theorem publishes_catalogue :
    catalogue.Publishes (Record.Plain e.space) (publishItem e region) where
  skips i field h := by
    obtain ⟨hid, rfl⟩ := Catalogue.eq_none_of_blank h
    exact publishItem_of_none hid
  breaks i h := by cases h
  keeps i := by
    cases i with
    | machine owner i => exact (keepsTo_publishInstance owner i).mono False.elim fun _ => id
    | vpc v => exact (keepsTo_publishVpc v).mono False.elim fun _ => id
    | subnet s => exact (keepsTo_publishSubnet s).mono False.elim fun _ => id
    | cluster c => exact (keepsTo_publishCluster c).mono False.elim fun _ => id

theorem takes_collectInstances :
    Work.Takes catalogue.Enlarges (collectInstances e region).run := by
  have hpublishes : catalogue.Publishes _ (publishItem e region) := publishes_catalogue
  refine hpublishes.takes_askTotal fun reservations => Eq.symm ?_
  refine (Work.total_flatMap (publishItem e region) _ reservations).trans ?_
  exact congrArg (Work.total · reservations) (funext fun r =>
    Work.total_map (publishItem e region) (Item.machine r.ownerId) r.instances)

/-- A job for anything takes one more item in its listing. -/
theorem takes_of_mem_pass {config : AwsConfig} {stamp : Instant} {job : Job Unit Call Answer}
    (h : job ∈ pass config stamp) : Work.Takes catalogue.Enlarges job.work.run := by
  obtain ⟨region, type, work, hwork, rfl⟩ := exists_of_mem_pass h
  show Work.Takes _ work.run
  let e : Emitter := ⟨stamp, config.base.space⟩
  have hpublishes : catalogue.Publishes _ (publishItem e region) := publishes_catalogue
  unfold work? at hwork
  split at hwork
  · exact Option.some.inj hwork ▸ takes_collectInstances
  · obtain rfl := Option.some.inj hwork
    exact hpublishes.takes_askTotal fun vpcs =>
      (Work.total_map (publishItem e region) Item.vpc vpcs).symm
  · obtain rfl := Option.some.inj hwork
    exact hpublishes.takes_askTotal fun subnets =>
      (Work.total_map (publishItem e region) Item.subnet subnets).symm
  · obtain rfl := Option.some.inj hwork
    refine keepsTo_collectClusters.takes ?_
    rintro c (rfl | ⟨name, hc⟩)
    · exact Catalogue.not_enlarges fun _ => rfl
    · refine Catalogue.not_enlarges fun a => ?_
      cases c with
      | describeCluster | listNodegroups | describeNodegroup | describeAutoScalingGroups => rfl
      | describeInstances | describeVpcs | describeSubnets | listClusters => exact hc.elim
  · cases hwork

/-! ### Clusters -/

section Describing

variable {w : World Call Answer}

theorem smooth_groupNames (cluster : String) : ∀ nodegroups : List String,
    Work.Smooth (fun r => ∃ names, r = .ok names) (groupNames region cluster nodegroups).run
  | [] => Work.smooth_pure ⟨[], rfl⟩
  | _ :: nodegroups =>
    (Work.smooth_ask _).attempt fun _ =>
      (smooth_groupNames cluster nodegroups).attempt fun _ => Work.smooth_pure ⟨_, rfl⟩

theorem smooth_clusterChildren (cluster : String) :
    Work.Smooth (fun r => ∃ children, r = .ok children) (clusterChildren region cluster).run := by
  refine (Work.smooth_ask _).attempt fun nodegroups => ?_
  refine (smooth_groupNames cluster nodegroups).attempt fun names => ?_
  split
  · exact Work.smooth_pure ⟨[], rfl⟩
  · exact (Work.smooth_ask _).attempt fun groups => Work.smooth_pure ⟨_, rfl⟩

/-- Nothing is warned of when a cluster is described and all calls succeed. -/
theorem smooth_describeCluster (name : String) :
    Work.Smooth (fun _ => True) (describeCluster region name) := by
  refine (Work.smooth_ask _).bind ?_
  rintro _ ⟨cluster, rfl⟩
  refine (smooth_clusterChildren name).bind ?_
  rintro _ ⟨children, rfl⟩
  exact Work.smooth_pure trivial

theorem describeClusters_append (more : List String) : ∀ names : List String,
    describeClusters region (names ++ more) = describeClusters region names >>= fun found =>
      describeClusters region more >>= fun rest => pure (found ++ rest)
  | [] => by simp only [List.nil_append, describeClusters, pure_bind, bind_pure]
  | name :: names => by
    rw [List.cons_append, describeClusters, describeClusters_append more names]
    simp only [describeClusters, bind_assoc, pure_bind, List.append_assoc]

end Describing

/-- Clusters with the given names are listed first of all, and shutdown does not overtake this. -/
def Lists (region : String) (w : World Call Answer) (names : List String) : Prop :=
  w.answer 0 (.listClusters region) = .ok names ∧ w.signal 0 (.listClusters region) = none

/-- What has happened when, after the listing, the clusters with the given names have been
described. -/
def reached (region : String) (w : World Call Answer) (names : List String) : Session Call :=
  ((describeClusters region names ()).run w ⟨false, [.listClusters region], [], []⟩).2

/-- A call that may be made when another cluster is described than the one with a name. -/
def Call.Spares (name : String) : Call → Prop
  | .describeCluster _ n | .listNodegroups _ n | .describeNodegroup _ n _ => n ≠ name
  | .describeAutoScalingGroups _ _ => True
  | .describeInstances _ | .describeVpcs _ | .describeSubnets _ | .listClusters _ => False

theorem spares_of_describes {name : String} {names : List String} (hfresh : name ∉ names)
    (c : Call) (h : ∃ other ∈ names, c.Describes region other) : c.Spares name := by
  obtain ⟨other, hother, hc⟩ := h
  have hne : other ≠ name := fun he => hfresh (he ▸ hother)
  cases c with
  | describeCluster | listNodegroups | describeNodegroup => exact fun he => hne (hc.2 ▸ he)
  | describeAutoScalingGroups => trivial
  | describeInstances | describeVpcs | describeSubnets | listClusters => exact hc.elim

/-- Describing other clusters. -/
theorem keepsTo_describeOthers {P : Record → Prop} {name : String} {names : List String}
    (hfresh : name ∉ names) :
    Work.KeepsTo False (Call.Spares name) P (describeClusters region names) :=
  (keepsTo_describeClusters names).mono id (spares_of_describes hfresh)

/-- One more cluster: a world in which it is listed, too. Its name is used by no other, it is
described by calls that succeed, and it has no ARN. Calls for others are answered as in `w`, where
those after it have other numbers. -/
structure ExtraCluster (region : String) (w : World Call Answer) where
  front : List String
  name : String
  rest : List String
  world : World Call Answer
  listed : Lists region w (front ++ rest)
  listed' : Lists region world (front ++ name :: rest)
  fresh : name ∉ front ++ rest
  earlier : ∀ k c, k < (reached region w front).calls.length → c.Spares name → w.Alike world k k c
  succeeds : ∀ x ∈ (describeCluster region name ()).exchanges world (reached region w front),
    ∃ a, x.2 = .ok a
  lacking : ∀ cluster : EksCluster, ⟨.describeCluster region name, .ok cluster⟩ ∈
    (describeCluster region name ()).exchanges world (reached region w front) →
      cluster.arn.bind Text.nonEmpty = none
  calm : ((describeCluster region name ()).run world (reached region w front)).2.cancelled = false
  later : ∀ k c, c.Spares name → w.Alike world ((reached region w front).calls.length + k)
    (((describeCluster region name ()).run world (reached region w front)).2.calls.length + k) c

section Collecting

variable {w : World Call Answer}

/-- Publish clusters that have been described. -/
def publishAll (e : Emitter) (region : String) (clusters : List (EksCluster × List Ean)) :
    Step (Except CollectorError Nat) := do
  let n ← Work.total (publishCluster e region) clusters
  return .ok n

theorem keepsTo_publishAll {Q : Call → Prop} (clusters : List (EksCluster × List Ean)) :
    Work.KeepsTo False Q (Record.Plain e.space) (publishAll e region clusters) :=
  (Work.keepsTo_total fun c _ => keepsTo_publishCluster c).bind fun _ => Work.keepsTo_pure _

/-- A cluster without an ARN among those that are published adds the warning of it. -/
theorem warns_publishAll {c : EksCluster × List Ean} (harn : c.1.arn.bind Text.nonEmpty = none)
    (front rest : List (EksCluster × List Ean)) :
    Program.Warns (.skippedItem (.invalidItem .cluster "arn"))
      (publishAll e region (front ++ rest) ()) (publishAll e region (front ++ c :: rest) ()) := by
  have hlacks : catalogue.lacks (.cluster c) = some "arn" := by
    show Catalogue.blank "arn" (c.1.arn.bind Text.nonEmpty) = some "arn"
    rw [harn]
    rfl
  have hclear : (front.map Item.cluster).any catalogue.stops = false := by simp [catalogue]
  have hpublishes : catalogue.Publishes _ (publishItem e region) := publishes_catalogue
  have hgains := hpublishes.gains_total hlacks (front.map .cluster) (rest.map .cluster) ()
  rw [Catalogue.gain, hclear, ← List.map_append, ← List.map_cons, ← List.map_append,
    Work.total_map, Work.total_map] at hgains
  exact Program.Warns.bind hgains _

/-- What is done when names have been listed. -/
def collectNamed (e : Emitter) (region : String) (names : List String) :
    Step (Except CollectorError Nat) :=
  describeClusters region names >>= publishAll e region

theorem run_collectClusters {names : List String} (h : Lists region w names) :
    ((collectClusters e region).run ()).run w (.start false) =
      (collectNamed e region names ()).run w ⟨false, [.listClusters region], [], []⟩ := by
  have hlisted : (Session.start false).ask w (.listClusters region) =
      (.ok names, ⟨false, [.listClusters region], [], []⟩) := by
    simp [Session.ask, Session.start, h.1, h.2]
  have hrun := Work.run_ask (w := w) (Call.listClusters region) () (.start false)
  rw [hlisted] at hrun
  unfold collectClusters
  rw [Work.run_bind_of_ok hrun, Work.run_lift_bind]
  rfl

/-- What is done when the clusters in front have been described, which are `found`, and the one that
comes after them, if any. -/
def finish (e : Emitter) (region : String) (found : List (EksCluster × List Ean))
    (own : Option (EksCluster × List Ean)) (rest : List String) :
    Step (Except CollectorError Nat) := do
  let later ← describeClusters region rest
  publishAll e region (found ++ (own.toList ++ later))

theorem keepsTo_finish {name : String} {rest : List String} (hfresh : name ∉ rest)
    (found : List (EksCluster × List Ean)) (own : Option (EksCluster × List Ean)) :
    Work.KeepsTo False (Call.Spares name) (Record.Plain e.space)
      (finish e region found own rest) :=
  (keepsTo_describeOthers hfresh).bind fun _ => keepsTo_publishAll _

theorem warns_finish {c : EksCluster × List Ean} (harn : c.1.arn.bind Text.nonEmpty = none)
    (found : List (EksCluster × List Ean)) (rest : List String) :
    Program.Warns (.skippedItem (.invalidItem .cluster "arn"))
      (finish e region found none rest ()) (finish e region found (some c) rest ()) :=
  .after (keepsTo_describeClusters (P := fun _ => True) rest ()) fun later =>
    warns_publishAll harn found later.1

theorem collectNamed_append (front rest : List String) :
    collectNamed e region (front ++ rest) =
      describeClusters region front >>= fun found => finish e region found none rest := by
  rw [collectNamed, describeClusters_append]
  simp only [finish, bind_assoc, pure_bind, Option.toList, List.nil_append]

theorem collectNamed_append_cons (front : List String) (name : String) (rest : List String) :
    collectNamed e region (front ++ name :: rest) =
      describeClusters region front >>= fun found => describeCluster region name >>= fun own =>
        finish e region found own rest := by
  rw [collectNamed, describeClusters_append]
  simp only [finish, describeClusters, bind_assoc, pure_bind]

namespace ExtraCluster

variable (x : ExtraCluster region w)

/-- The clusters in front are described alike. -/
theorem run_front : ∃ found,
    (describeClusters region x.front ()).run w ⟨false, [.listClusters region], [], []⟩ =
        (.result (found, ()), reached region w x.front) ∧
      (describeClusters region x.front ()).run x.world ⟨false, [.listClusters region], [], []⟩ =
        (.result (found, ()), reached region w x.front) := by
  have htraces : Work.Traces w (describeClusters region x.front) _ :=
    traces_describeClusters x.front
  obtain ⟨found, ⟨⟩, t, -, hfront, -⟩ := htraces () ⟨false, [.listClusters region], [], []⟩
  have hreached : reached region w x.front = t := congrArg Prod.snd hfront
  have hfresh : x.name ∉ x.front := fun h => x.fresh (List.mem_append_left _ h)
  have hsame := (keepsTo_describeOthers (P := fun _ => True) hfresh ()).run_congr x.earlier
  rw [hreached]
  exact ⟨found, hfront, hsame.trans hfront⟩

/-- The calls for the cluster itself add nothing. -/
theorem run_own : ∃ c t', c.1.arn.bind Text.nonEmpty = none ∧
    (describeCluster region x.name ()).run x.world (reached region w x.front) =
      (.result (some c, ()), t') ∧
    t'.records = (reached region w x.front).records ∧
    t'.warnings = (reached region w x.front).warnings := by
  have hsucceeds := x.succeeds
  have hlacking := x.lacking
  have htraces : Work.Traces x.world (describeCluster region x.name) _ :=
    traces_describeCluster x.name
  obtain ⟨own, ⟨⟩, t', _, hown, hrecords, rfl, hchain⟩ := htraces () (reached region w x.front)
  have hwarnings := (smooth_describeCluster x.name ()).run hsucceeds
  rw [hown] at hwarnings
  rw [List.append_nil] at hrecords
  generalize (describeCluster region x.name ()).exchanges x.world _ = log
    at hsucceeds hlacking hchain
  cases hchain with
  | undescribed cause =>
    obtain ⟨_, hcause⟩ := hsucceeds _ List.mem_cons_self
    cases hcause
  | described cluster =>
    exact ⟨_, t', hlacking cluster List.mem_cons_self, hown, hrecords, hwarnings⟩

/-- Shutdown has not been signalled before the cluster is described. -/
theorem cancelled_reached : (reached region w x.front).cancelled = false := by
  obtain ⟨a, ha⟩ := x.succeeds
    ⟨_, ((reached region w x.front).ask x.world (.describeCluster region x.name)).1⟩
    List.mem_cons_self
  by_contra hcancelled
  rw [Session.ask_of_cancelled (by simpa using hcancelled)] at ha
  cases ha

/-- One more cluster without an ARN adds the warning of it. -/
theorem warned :
    let run := ((collectClusters e region).run ()).run w (.start false)
    let run' := ((collectClusters e region).run ()).run x.world (.start false)
    run'.1 = run.1 ∧ run.2.Warned (.skippedItem (.invalidItem .cluster "arn")) run'.2 := by
  obtain ⟨found, hfront, hfront'⟩ := x.run_front
  obtain ⟨c, t', harn, hown, hrecords, hwarnings⟩ := x.run_own
  have hcalm := x.calm
  have hlater := x.later
  rw [hown] at hcalm hlater
  rw [run_collectClusters x.listed, run_collectClusters x.listed', collectNamed_append,
    collectNamed_append_cons, Work.run_bind_of_result hfront,
    Work.run_bind_of_result hfront', Work.run_bind_of_result hown]
  -- what is left makes the same calls in both worlds, with other numbers
  have hfresh : x.name ∉ x.rest := fun h => x.fresh (List.mem_append_right _ h)
  have hrest : (finish e region found (some c) x.rest ()).run (x.world.after t'.calls.length)
      (.start false) = (finish e region found (some c) x.rest ()).run
        (w.after (reached region w x.front).calls.length) (.start false) :=
    (keepsTo_finish hfresh found (some c) ()).run_congr fun k c _ hc => hlater k c hc
  rw [Program.run_eq_followedBy w, Program.run_eq_followedBy x.world, x.cancelled_reached, hcalm,
    hrest]
  obtain ⟨hresult, hwarned⟩ := (warns_finish harn found x.rest).run (.start false)
  exact ⟨hresult, hwarned.followedBy hrecords hwarnings⟩

end ExtraCluster

end Collecting

/-- Some clusters are listed, of which the one called `c` has no ARN. -/
def clustersNamed (names : List String) : World Call Answer where
  answer _
    | .listClusters _ => .ok names
    | .describeCluster _ n =>
      .ok ⟨some n, if n = "c" then none else some n, none, none, .empty⟩
    | .listNodegroups _ _ => .ok []
    | .describeNodegroup _ _ _ => .ok ⟨none, none⟩
    | .describeAutoScalingGroups _ _ => .ok []
    | .describeInstances _ => .ok []
    | .describeVpcs _ => .ok []
    | .describeSubnets _ => .ok []
  signal _ _ := none

/-- Between two others there is one more cluster. -/
example : ∃ x : ExtraCluster "r" (clustersNamed ["a", "b"]),
    x.world = clustersNamed ["a", "c", "b"] := by
  let t := reached "r" (clustersNamed ["a", "b"]) ["a"]
  have hexchanges : (describeCluster "r" "c" ()).exchanges (clustersNamed ["a", "c", "b"]) t =
      [⟨.describeCluster "r" "c", .ok ⟨some "c", none, none, none, .empty⟩⟩,
        ⟨.listNodegroups "r" "c", .ok []⟩] := rfl
  have halike (k k' : Nat) (c : Call) (hc : c.Spares "c") :
      (clustersNamed ["a", "b"]).Alike (clustersNamed ["a", "c", "b"]) k k' c := by
    cases c with
    | listClusters => exact hc.elim
    | _ => exact ⟨rfl, rfl⟩
  exact ⟨{
    front := ["a"]
    name := "c"
    rest := ["b"]
    world := clustersNamed ["a", "c", "b"]
    listed := ⟨rfl, rfl⟩
    listed' := ⟨rfl, rfl⟩
    fresh := by decide
    earlier := fun k c _ hc => halike k k c hc
    succeeds := by
      intro y hy
      rw [hexchanges] at hy
      simp only [List.mem_cons, List.not_mem_nil, or_false] at hy
      rcases hy with rfl | rfl <;> exact ⟨_, rfl⟩
    lacking := by
      intro cluster hcluster
      rw [hexchanges] at hcluster
      obtain rfl : cluster = ⟨some "c", none, none, none, .empty⟩ := by simpa using hcluster
      rfl
    calm := rfl
    later := fun k c hc => halike _ _ c hc }, rfl⟩

end CloudInventory.Aws
