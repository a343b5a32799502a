import CloudInventory.Collector
import CloudInventory.Schedule

/-!
Collectors over a snapshot on a schedule. A snapshot answers at once, so starting takes no time
and a pass is over at the time of its launch; what a pass leaves in the collector is there for the
next one.
-/

namespace CloudInventory

/-- The warnings of a job, with the one of its failure; a cancelled job has not failed, and of one
that breaks off nobody hears. -/
def JobReport.allWarnings (r : JobReport) : List Warning :=
  match r.outcome with
  | .ok _ | .error .cancelled | .panic => r.warnings
  | .error cause => r.warnings ++ [.taskFailed cause]

/-- What came of a collector on a schedule. -/
structure Collection where
  result : Except CollectorError Summary
  /-- What its jobs did, pass by pass. -/
  reports : List JobReport
  warnings : List Warning

namespace Collection

/-- What has been published, in order. -/
def published (c : Collection) : List Record := c.reports.flatMap JobReport.records

end Collection

namespace Collector

/-- Milliseconds between two passes. -/
def period (c : Collector) : Nat := c.base.period * 1000

/-- Start a collector. Only one that watches has anything to start. -/
def start (c : Collector) (d : Disturbance) (files : Option Snapshot) : Kube.Startup × Collector :=
  match c with
  | kube k =>
    let (startup, k) := k.start d files
    (startup, kube k)
  | c => (⟨[], .ok (), []⟩, c)

/-- The plan of a collector whose start has the given result. What its jobs do is told by
`passes`. -/
def plan (c : Collector) (started : Except CollectorError Unit) : Plan where
  provider := c.provider
  period := c.period
  startTime := 0
  startOutcome := match started with
    | .ok () => .ok
    | .error cause => .error cause
  jobs := fun _ => []

/-- What the jobs of passes did that were launched one after another. -/
def passes (c : Collector) (files : Snapshot) (clock : Clock) (stamp : Nat → Instant)
    (signal : Nat) : List Launch → List JobReport
  | [] => []
  | l :: ls =>
    let (reports, c, _) :=
      c.pass files .none (stamp l.time) (clock.reading l.time) (signal < l.time)
    reports ++ passes c files clock stamp signal ls

/-- Run a collector until the signal; records of a time have its stamp. -/
def collect (c : Collector) (files : Snapshot) (clock : Clock) (stamp : Nat → Instant)
    (signal : Signal) : Collection :=
  let (startup, started) := c.start .none (some files)
  let course := (c.plan startup.result).course clock signal
  let reports := started.passes files clock stamp signal.time course.launches
  let ofEntry (e : Nat × Entry) : List Warning :=
    match e.2 with
    | .warning w => [w]
    | .happening _ => []
  ⟨course.result, reports, course.entries.flatMap ofEntry ++ reports.flatMap JobReport.allWarnings⟩

end Collector

/-! ### A configuration's collectors -/

/-- The collectors of a configuration, in the order of its sections. One that runs inside a
cluster can look metadata up, and is answered by `metadata`. -/
def Config.collectors (c : Config) (metadata : Except CollectorError Json) : List Collector :=
  let kube (k : KubeConfig) : Collector :=
    .kube (.ofConfig k (if k.inCluster then some metadata else none))
  (c.aws.map Collector.aws).toList ++
    ((c.gcp.bind fun g => GcpCollector.ofConfig? g Cache.defaultCapacity).map
      Collector.gcp).toList ++
    (c.azure.map Collector.azure).toList ++
    (c.kube.map kube).toList

namespace Snapshot

/-- The files of a region. -/
def awsFiles : List String :=
  ["instances.json", "vpcs.json", "subnets.json", "eks_clusters.json", "nodegroups.json",
    "autoscaling_groups.json"]

/-- The files of a project. -/
def gcpFiles : List String :=
  ["networks.json", "subnetworks.json", "instances.json", "clusters.json"]

/-- The paths of all files that a collector may ask for, when `subscriptions` are listed. -/
def pathsFor (c : Collector) (subscriptions : List String) : List String :=
  match c with
  | .aws a => a.regions.flatMap fun r => awsFiles.map (scopePath "aws" r)
  | .gcp g => g.config.projects.flatMap fun p => gcpFiles.map (scopePath "gcp" p)
  | .azure a =>
    within "azure" "subscriptions.json" ::
      (a.subscriptionId.toList ++ subscriptions).map fun s => scopePath "azure" s "vms.json"
  | .kube _ => [within "k8s" "nodes.json", within "k8s" "pods.json"]

end Snapshot

end CloudInventory
