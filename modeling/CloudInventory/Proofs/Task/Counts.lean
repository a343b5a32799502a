import CloudInventory.Proofs.Aws.Records
import CloudInventory.Proofs.Azure.Records
import CloudInventory.Proofs.Gcp.Records
import CloudInventory.Proofs.Kube.Records

/-!
What the result of a task tells of its records. It is to be the number of records handed out, and an
error is to mean that there are none. The jobs of a pass keep to that wherever a scope is gone
through with a single call. A job for clusters of Google Cloud makes one call for each wanted region
of a project, and what it has published for one region drops out of the count when the call for a
later one fails. So the main statement is this: the result tells exactly what was published unless
records are lost in that way.
-/

namespace CloudInventory

/-- A count is that of the records, and with an error there are none. A job that breaks off has no
result. -/
def JobReport.Exact (report : JobReport) : Prop :=
  match report.outcome with
  | .ok n => report.records.length = n
  | .error _ => report.records = []
  | .panic => True

namespace Task

/-- How many records a task publishes in scopes that fail after all. Only projects can fail after a
record has been published. -/
def lost : Task → Nat
  | gcp config ttl turn _ caches => turn.lost config ttl caches
  | _ => 0

/-- The lost records are the ones that are published and not counted. -/
theorem meets_lost (task : Task) :
    task.report.Meets (fun _ => True) fun r new => new.length = Work.counted r + task.lost := by
  have htells : ∀ (r : Except CollectorError Nat) (new : List Record), Work.Tells r new →
      new.length = Work.counted r + 0 := by
    intro r new h
    cases r with
    | ok n => exact h
    | error e => exact congrArg List.length h
  cases task with
  | aws config stamp job ofPass world cancelled =>
    exact ((Aws.collects_of_mem_pass ofPass).report_meets (w := world) (s := ()) trivial
      Aws.Call.words cancelled).mono (fun _ _ => trivial) htells
  | azure config stamp job ofPass world cancelled =>
    exact ((Azure.collects_of_mem_pass ofPass).report_meets (w := world) (s := ()) trivial
      Azure.Call.words cancelled).mono (fun _ _ => trivial) htells
  | gcp config ttl turn ofPass caches =>
    have hcaches : Gcp.CachesIds False caches := False.elim
    exact (ofPass.report_meets hcaches).mono (fun _ _ => trivial) fun _ _ h => h
  | kube config fetches stamp stores job ofPass world cancelled =>
    exact ((Kube.collects_of_mem_pass ofPass).report_meets (w := world) (s := ()) trivial
      (fun _ => []) cancelled).mono (fun _ _ => trivial) htells

/-- CORRECT: what a task publishes is what its result counts together with the records that are
lost. So the result tells exactly what was published if and only if nothing is lost or there is no
result; and nothing is ever lost but by a job for clusters of Google Cloud that lists them by two
regions or more. -/
theorem report_exact_iff (task : Task) :
    (∀ r, task.report.outcome = .ofResult r →
      task.report.records.length = Work.counted r + task.lost) ∧
    (task.report.Exact ↔ task.lost = 0 ∨ task.report.outcome = .panic) ∧
    (task.lost ≠ 0 → ∃ config ttl turn ofPass caches,
      task = .gcp config ttl turn ofPass caches ∧ turn.job.type = .cluster ∧
        2 ≤ config.regions.length) := by
  have hcount := task.meets_lost.result
  refine ⟨hcount, ?_, fun hlost => ?_⟩
  · unfold JobReport.Exact
    cases houtcome : task.report.outcome with
    | ok n =>
      have hn : task.report.records.length = n + task.lost := hcount (.ok n) houtcome
      simp only [reduceCtorEq, or_false]
      omega
    | error e =>
      have hlength : task.report.records.length = 0 + task.lost := hcount (.error e) houtcome
      simp only [reduceCtorEq, or_false, ← List.length_eq_zero_iff]
      omega
    | panic => simp
  · cases task with
    | gcp config ttl turn ofPass caches =>
      refine ⟨config, ttl, turn, ofPass, caches, rfl, ?_⟩
      by_contra hnot
      refine hlost (ofPass.lost_eq_zero ?_)
      rcases not_and_or.1 hnot with htype | hregions
      · exact .inl htype
      · exact .inr (by omega)
    | aws => exact absurd rfl hlost
    | azure => exact absurd rfl hlost
    | kube => exact absurd rfl hlost

/-! ### A project that fails at its second region -/

/-- Of two projects the first has a cluster in one region and cannot be listed in the other. -/
def halfListed : World Gcp.Call Gcp.Answer where
  answer := fun _ call => match call with
    | .listClusters parent =>
      if parent = "projects/p/locations/a" then
        .ok [⟨some "1", none, some "a", none, none, [], .empty⟩]
      else if parent = "projects/p/locations/b" then
        .error (.provider "gcp" "list_clusters" (.refused "injected failure"))
      else .ok []
    | .listInstances _ _ => .ok []
    | .listNetworks _ => .ok []
    | .listSubnetworks _ => .ok []
  signal := fun _ _ => none

/-- Two projects and two regions. -/
def twoRegions : GcpConfig := ⟨.standard, ["p", "q"], ["a", "b"], none⟩

/-- The job for the clusters of both projects. -/
def halfListedTurn : Gcp.Turn where
  stamp := .epoch
  now := 0
  job := ⟨.cluster, "*",
    Work.scopes (Gcp.clustersOf (.ofConfig twoRegions 1200000 .epoch 0)) ["p", "q"]⟩
  world := halfListed
  cancelled := false

theorem halfListedTurn_ofPass : halfListedTurn.OfPass twoRegions 1200000 := by
  unfold Gcp.Turn.OfPass Gcp.pass
  refine List.mem_filterMap.2 ⟨.cluster, ?_, rfl⟩
  decide +kernel

/-- A record is out, and the count is zero. -/
theorem not_exact_halfListed :
    (∃ task : Task, task.report.outcome = .ok 0 ∧ task.report.records.length = 1 ∧
      task.lost = 1 ∧ ¬ task.report.Exact) := by
  let task : Task := .gcp twoRegions 1200000 halfListedTurn halfListedTurn_ofPass
    (.withCapacity 8)
  have houtcome : task.report.outcome = .ok 0 := by decide +kernel
  have hlength : task.report.records.length = 1 := by decide +kernel
  obtain ⟨hcount, hexact, -⟩ := report_exact_iff task
  have hlost : 1 = 0 + task.lost := hlength ▸ hcount (.ok 0) houtcome
  refine ⟨task, houtcome, hlength, by omega, fun h => ?_⟩
  rcases hexact.1 h with hnone | hpanic
  · omega
  · rw [houtcome] at hpanic
    cases hpanic

end Task

end CloudInventory
