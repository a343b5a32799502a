import CloudInventory.Proofs.Aws.Skipping
import CloudInventory.Proofs.Gcp.Skipping
import CloudInventory.Proofs.Task.Cancellation
import CloudInventory.Proofs.Task.Documents

/-!
Items that tasks skip. A listing is enlarged, at any place, by an item that is wanted but lacks what
is needed to describe it. Then the task publishes the same records, comes to the same result and
leaves the same caches, and there is just one more warning, unless the task breaks off at an item
before that one. The main statement says this for all that is listed, and that tasks break off only
where the clock cannot tell when entries of a cache will expire.
-/

namespace CloudInventory

/-! ### Azure -/

namespace Azure

/-- The machines that are listed and wanted. -/
def catalogue (config : AzureConfig) : Catalogue Call Answer VirtualMachine where
  items
    | .listSubscriptions, _ => []
    | .listVms _, vms => vms.filter (VirtualMachine.wanted config.regions config.resourceGroup)
  type _ := .azureVm
  lacks v := (Catalogue.blank "vmId" v.vmId?).or (Catalogue.blank "id" v.resourceGroup?)
  stops _ := false

variable {config : AzureConfig} {e : Emitter} {subscription : String}

theorem publishes_catalogue : (catalogue config).Publishes (Record.Plain e.space)
    (publishVm e subscription) where
  skips v field h := by
    have hlacks : (Catalogue.blank "vmId" v.vmId?).or (Catalogue.blank "id" v.resourceGroup?) =
        some field := h
    unfold publishVm
    cases hid : v.vmId? with
    | none =>
      rw [hid] at hlacks
      obtain rfl := Option.some.inj hlacks
      rfl
    | some id =>
      rw [hid] at hlacks
      obtain ⟨hgroup, rfl⟩ := Catalogue.eq_none_of_blank hlacks
      rw [hgroup]
      rfl
  breaks v h := by cases h
  keeps v := keepsTo_publishVm subscription v

theorem takes_of_mem_pass {stamp : Instant} {job : Job Unit Call Answer}
    (h : job ∈ pass config stamp) : Work.Takes (catalogue config).Enlarges job.work.run := by
  obtain rfl := eq_of_mem_pass h
  refine Work.Takes.attempt ?_ fun ids => Work.takes_scopes (fun id => ?_) ids
  · refine (keepsTo_subscriptions (B := False) (P := fun _ => True)).takes ?_
    rintro _ rfl
    exact Catalogue.not_enlarges fun _ => rfl
  · have hpublishes : (catalogue config).Publishes _ (publishVm ⟨stamp, config.base.space⟩ id) :=
      publishes_catalogue
    exact hpublishes.takes_askTotal fun _ => rfl

end Azure

/-! ### Jobs -/

namespace JobReport

/-- With the second report nothing has changed but for one more warning. -/
structure Skips (m : Warning) (r r' : JobReport) : Prop where
  records : r'.records = r.records
  outcome : r'.outcome = r.outcome
  warnings : Inserted m r.warnings r'.warnings

theorem not_skips_self {m : Warning} {r : JobReport} : ¬ r.Skips m r := by
  intro h
  have hlength := h.warnings.length
  omega

end JobReport

section Jobs

variable {σ Call ι : Type} {Answer : Call → Type} {w w' : World Call Answer} {s : σ}
  {cancelled : Bool} {m : Warning}

namespace Job

/-- A job that gives one more warning, and otherwise runs alike. -/
theorem report_skips (j : Job σ Call Answer) (words : Call → List String)
    (hresult : (j.ending w' s cancelled).1 = (j.ending w s cancelled).1)
    (hwarned : (j.ending w s cancelled).2.Warned m (j.ending w' s cancelled).2) :
    (j.report w words s cancelled).1.Skips m (j.report w' words s cancelled).1 ∧
      (j.report w' words s cancelled).2.1 = (j.report w words s cancelled).2.1 := by
  rw [ending, ending] at hresult hwarned
  rw [report, report]
  generalize (j.work.run.run s).run w (.start cancelled) = run at hresult hwarned ⊢
  generalize (j.work.run.run s).run w' (.start cancelled) = run' at hresult hwarned ⊢
  obtain ⟨result, t⟩ := run
  obtain ⟨result', t'⟩ := run'
  obtain rfl : result' = result := hresult
  cases result' with
  | brokenOff left => exact ⟨⟨hwarned.records, rfl, hwarned.warnings⟩, rfl⟩
  | result ended => exact ⟨⟨hwarned.records, rfl, hwarned.warnings⟩, rfl⟩

variable [DecidableEq Call] {C : Catalogue Call Answer ι} {j : Job σ Call Answer}

/-- A job whose listing has one more item skips it, unless the job is cut off before. -/
theorem report_insertion (h : Work.Takes C.Enlarges j.work.run) (words : Call → List String)
    (x : C.Insertion w (j.ending w s cancelled).2.calls) :
    (¬ x.CutOff →
      (j.report w words s cancelled).1.Skips x.warning (j.report x.world words s cancelled).1) ∧
    (x.CutOff → (j.report w words s cancelled).1.outcome = .panic ∧
      (j.report x.world words s cancelled).1 = (j.report w words s cancelled).1) ∧
    (j.report x.world words s cancelled).2.1 = (j.report w words s cancelled).2.1 := by
  by_cases hcut : x.CutOff
  · obtain ⟨hsame, hnone⟩ := x.run_of_cutOff h hcut
    have hreport : j.report x.world words s cancelled = j.report w words s cancelled := by
      have hending : (j.work.run.run s).run x.world (.start cancelled) =
          (j.work.run.run s).run w (.start cancelled) := hsame
      rw [report, report, hending]
    rw [hreport]
    exact ⟨absurd hcut, fun _ => ⟨(j.outcome_eq_panic_iff words).2 hnone, rfl⟩, rfl⟩
  · obtain ⟨hresult, hwarned⟩ := x.run_of_clear h hcut
    obtain ⟨hskips, hstate⟩ := j.report_skips words hresult hwarned
    exact ⟨fun _ => hskips, fun h => absurd h hcut, hstate⟩

end Job

end Jobs

/-! ### Tasks -/

/-- A task that receives a listing, and one more item in the listing that is wanted but lacks
something. -/
inductive Insertion where
  | aws (config : AwsConfig) (stamp : Instant) (job : Job Unit Aws.Call Aws.Answer)
    (ofPass : job ∈ Aws.pass config stamp) (world : World Aws.Call Aws.Answer) (cancelled : Bool)
    (extra : Aws.catalogue.Insertion world (job.ending world () cancelled).2.calls)
  | eks (config : AwsConfig) (stamp : Instant) (job : Job Unit Aws.Call Aws.Answer)
    (ofPass : job ∈ Aws.pass config stamp) (ofClusters : job.type = .cluster)
    (world : World Aws.Call Aws.Answer) (extra : Aws.ExtraCluster job.scope world)
  | azure (config : AzureConfig) (stamp : Instant) (job : Job Unit Azure.Call Azure.Answer)
    (ofPass : job ∈ Azure.pass config stamp) (world : World Azure.Call Azure.Answer)
    (cancelled : Bool)
    (extra : (Azure.catalogue config).Insertion world (job.ending world () cancelled).2.calls)
  | gcp (config : GcpConfig) (ttl : Nat) (turn : Gcp.Turn) (ofPass : turn.OfPass config ttl)
    (caches : Gcp.Caches)
    (extra : (Gcp.catalogue (turn.setting config ttl)).Insertion turn.world
      (turn.job.ending turn.world caches turn.cancelled).2.calls)

namespace Insertion

/-- The task without the item. -/
def task : Insertion → Task
  | aws config stamp job ofPass world cancelled _ =>
    .aws config stamp job ofPass world cancelled
  | eks config stamp job ofPass _ world _ => .aws config stamp job ofPass world false
  | azure config stamp job ofPass world cancelled _ =>
    .azure config stamp job ofPass world cancelled
  | gcp config ttl turn ofPass caches _ => .gcp config ttl turn ofPass caches

/-- The job of Google Cloud with the item. -/
def turn' {config : GcpConfig} {ttl : Nat} (turn : Gcp.Turn) {calls : List Gcp.Call}
    (extra : (Gcp.catalogue (turn.setting config ttl)).Insertion turn.world calls) : Gcp.Turn :=
  { turn with world := extra.world }

/-- The task with the item. -/
def task' : Insertion → Task
  | aws config stamp job ofPass _ cancelled extra =>
    .aws config stamp job ofPass extra.world cancelled
  | eks config stamp job ofPass _ _ extra => .aws config stamp job ofPass extra.world false
  | azure config stamp job ofPass _ cancelled extra =>
    .azure config stamp job ofPass extra.world cancelled
  | gcp config ttl turn ofPass caches extra => .gcp config ttl (turn' turn extra) ofPass caches

/-- The type of the item. -/
def type : Insertion → AssetType
  | aws _ _ _ _ _ _ extra => extra.item.type
  | eks .. => .cluster
  | azure .. => .azureVm
  | gcp _ _ _ _ _ extra => extra.item.item.type

/-- What the item lacks. -/
def field : Insertion → String
  | aws _ _ _ _ _ _ extra => extra.field
  | eks .. => "arn"
  | azure _ _ _ _ _ _ extra => extra.field
  | gcp _ _ _ _ _ extra => extra.field

/-- The task breaks off at an item before. -/
def CutOff : Insertion → Prop
  | aws _ _ _ _ _ _ extra => extra.CutOff
  | eks .. => False
  | azure _ _ _ _ _ _ extra => extra.CutOff
  | gcp _ _ _ _ _ extra => extra.CutOff

/-- The clock cannot tell when entries will expire that the task keeps. -/
def untold : Insertion → Bool
  | aws .. | eks .. | azure .. => false
  | gcp _ ttl turn _ _ _ => !Clock.tells turn.now ttl

/-- The task leaves the same caches. -/
def SameCaches : Insertion → Prop
  | aws .. | eks .. | azure .. => True
  | gcp _ _ turn _ caches extra => ((turn' turn extra).report caches).2.1 = (turn.report caches).2.1

theorem work_of_clusters {config : AwsConfig} {stamp : Instant}
    {job : Job Unit Aws.Call Aws.Answer} (h : job ∈ Aws.pass config stamp)
    (hclusters : job.type = .cluster) :
    job.work = Aws.collectClusters ⟨stamp, config.base.space⟩ job.scope := by
  obtain ⟨region, type, work, hwork, rfl⟩ := Aws.exists_of_mem_pass h
  obtain rfl : type = .cluster := hclusters
  exact (Option.some.inj hwork).symm

/-- What is skipped and what is not. -/
theorem reports (x : Insertion) :
    (¬ x.CutOff →
      x.task.report.Skips (.skippedItem (.invalidItem x.type x.field)) x.task'.report) ∧
    (x.CutOff → x.task.report.outcome = .panic ∧ x.task'.report = x.task.report) ∧
    x.SameCaches := by
  cases x with
  | aws config stamp job ofPass world cancelled extra =>
    obtain ⟨hskips, hcut, -⟩ :=
      Job.report_insertion (Aws.takes_of_mem_pass ofPass) Aws.Call.words extra
    exact ⟨hskips, hcut, trivial⟩
  | eks config stamp job ofPass ofClusters world extra =>
    obtain ⟨hresult, hwarned⟩ := extra.warned (e := ⟨stamp, config.base.space⟩)
    rw [← work_of_clusters ofPass ofClusters] at hresult hwarned
    exact ⟨fun _ => (job.report_skips Aws.Call.words hresult hwarned).1, False.elim, trivial⟩
  | azure config stamp job ofPass world cancelled extra =>
    obtain ⟨hskips, hcut, -⟩ :=
      Job.report_insertion (Azure.takes_of_mem_pass ofPass) Azure.Call.words extra
    exact ⟨hskips, hcut, trivial⟩
  | gcp config ttl turn ofPass caches extra =>
    obtain ⟨collect, hcollect, hwork⟩ := ofPass.work
    have htakes : Work.Takes (Gcp.catalogue (turn.setting config ttl)).Enlarges
        turn.job.work.run := by
      rw [hwork]
      exact Work.takes_scopes (Gcp.takes_workIn hcollect) _
    exact Job.report_insertion htakes Gcp.Call.words extra

/-- A task is cut off only where the clock cannot tell when entries will expire. -/
theorem untold_of_cutOff (x : Insertion) (h : x.CutOff) : x.untold = true := by
  cases x with
  | aws _ _ _ _ _ _ extra =>
    obtain ⟨i, -, hstops⟩ := h
    cases hstops
  | eks => exact h.elim
  | azure _ _ _ _ _ _ extra =>
    obtain ⟨i, -, hstops⟩ := h
    cases hstops
  | gcp config ttl turn _ _ extra =>
    obtain ⟨i, -, hstops⟩ := h
    exact (Bool.and_eq_true_iff.1 (Bool.and_eq_true_iff.1 hstops).2).2

/-- CORRECT: one more item in a listing that is wanted, but lacks what is needed to describe it, at
any place, adds just the warning of it; the records, the result and the caches are the same. That is
so unless the task breaks off at an item before it, so that it does the same with the item and
without it; and this happens only where the clock cannot tell when entries of a cache will
expire. -/
theorem skipped_iff (x : Insertion) :
    (x.task.report.Skips (.skippedItem (.invalidItem x.type x.field)) x.task'.report ↔
      ¬ x.CutOff) ∧
    (x.CutOff → x.untold = true ∧ x.task.report.outcome = .panic ∧
      x.task'.report = x.task.report) ∧
    x.SameCaches := by
  obtain ⟨hskips, hcut, hcaches⟩ := x.reports
  refine ⟨⟨fun h hcutOff => ?_, hskips⟩, fun h => ⟨x.untold_of_cutOff h, hcut h⟩, hcaches⟩
  rw [(hcut hcutOff).2] at h
  exact JobReport.not_skips_self h

/-! ### After a network that cannot be kept -/

/-- There is one network, which has a link of its own. -/
def linkedNetwork : World Gcp.Call Gcp.Answer where
  answer := fun _ call => match call with
    | .listNetworks _ => .ok [⟨some "3", none, some "networks/3"⟩]
    | .listSubnetworks _ => .ok []
    | .listInstances _ _ => .ok []
    | .listClusters _ => .ok []
  signal := fun _ _ => none

/-- A project whose networks are collected. -/
def oneProject : GcpConfig := ⟨.standard, ["p"], [], none⟩

/-- The job for them, which would have to keep the network for longer than the clock can tell. -/
def linkedNetworkTurn : Gcp.Turn where
  stamp := .epoch
  now := 0
  job := ⟨.gcpVpc, "*",
    Work.scopes (Gcp.vpcsOf (.ofConfig oneProject Clock.range .epoch 0)) ["p"]⟩
  world := linkedNetwork
  cancelled := false

theorem linkedNetworkTurn_ofPass : linkedNetworkTurn.OfPass oneProject Clock.range := by
  unfold Gcp.Turn.OfPass Gcp.pass
  refine List.mem_filterMap.2 ⟨.gcpVpc, ?_, rfl⟩
  decide +kernel

/-- A network without an id comes after it. -/
def blankNetwork : Insertion :=
  .gcp oneProject Clock.range linkedNetworkTurn linkedNetworkTurn_ofPass (.withCapacity 8)
    { number := 0
      call := .listNetworks "p"
      listing := [⟨some "3", none, some "networks/3"⟩]
      enlarged := [⟨some "3", none, some "networks/3"⟩, ⟨none, some "x", none⟩]
      front := [.network ⟨some "3", none, some "networks/3"⟩]
      item := .network ⟨none, some "x", none⟩
      rest := []
      field := "id"
      made := by decide +kernel
      inTime := nofun
      answered := rfl
      items := rfl
      items' := rfl
      lacking := rfl }

/-- The job breaks off at the first network, and there is no warning of the one after it. -/
theorem not_skips_blankNetwork : ∃ x : Insertion, x.type = .gcpVpc ∧ x.field = "id" ∧
    x.task'.report.outcome = .panic ∧ x.task'.report.warnings = [] ∧
      ¬ x.task.report.Skips (.skippedItem (.invalidItem x.type x.field)) x.task'.report := by
  have hcut : blankNetwork.CutOff := ⟨_, List.mem_singleton_self _, by decide +kernel⟩
  obtain ⟨hiff, hbroken, -⟩ := skipped_iff blankNetwork
  obtain ⟨-, hpanic, hsame⟩ := hbroken hcut
  have hwarnings : blankNetwork.task'.report.warnings = [] := by decide +kernel
  refine ⟨blankNetwork, rfl, rfl, ?_, hwarnings, fun h => hiff.1 h hcut⟩
  rw [hsame]
  exact hpanic

end Insertion

end CloudInventory
