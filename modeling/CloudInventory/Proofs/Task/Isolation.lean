import CloudInventory.Azure.Collector
import CloudInventory.Proofs.Gcp.Readers
import CloudInventory.Proofs.Gcp.Turns
import CloudInventory.Proofs.Program.Apart

/-!
Scopes of one task, set beside what is done with each of them alone. A task for Google Cloud goes
through projects, and one for Azure through subscriptions. What is published for a scope hangs on
what its calls are answered and on the caches that the task has found, and on nothing that the task
does with the scopes before: it never reads a cache that it fills. So one that fails changes
nothing in any other. One that breaks off ends the whole task, though. The main statement says that
this is all that stands in the way, and that it only happens where the clock cannot tell when the
entries of the caches will expire.
-/

namespace CloudInventory

/-! ### Google Cloud -/

namespace Gcp.Turn

variable {config : GcpConfig} {ttl : Nat} {u : Turn}

/-- The job of the same type for a single project. -/
def alone (config : GcpConfig) (ttl : Nat) (u : Turn) (project : String) :
    Option (Job Caches Call Answer) :=
  (pass { config with projects := [project] } ttl u.stamp u.now).find? fun j => j.type = u.job.type

/-- What the jobs do for one project each, all from the caches that the job finds. -/
def apart (config : GcpConfig) (ttl : Nat) (u : Turn) (s : Caches) : List JobReport :=
  Job.reportApart u.world Call.words s (config.projects.filterMap (u.alone config ttl)) 0
    u.cancelled

/-- There is such a job for every project, and it does the same work. -/
theorem OfPass.alone_work (hu : u.OfPass config ttl) {collect : String → Try Nat}
    (hcollect : workIn? (u.setting config ttl) u.job.type = some collect) (project : String) :
    (u.alone config ttl project).map Job.work = some (Work.scopes collect [project]) := by
  let config' : GcpConfig := { config with projects := [project] }
  have hsame : workIn? (u.setting config' ttl) u.job.type = some collect := by
    rw [← hcollect]
    generalize u.job.type = type
    cases type <;> rfl
  have hexists : ∃ j ∈ pass config' ttl u.stamp u.now, decide (j.type = u.job.type) = true := by
    obtain ⟨type, htype, hjob⟩ := List.mem_filterMap.1 hu
    obtain ⟨work, -, hjob⟩ := Option.map_eq_some_iff.1 hjob
    have htype' : u.job.type = type := by rw [← hjob]
    rw [htype'] at hsame ⊢
    refine ⟨⟨type, "*", Work.scopes collect [project]⟩, List.mem_filterMap.2 ⟨type, htype, ?_⟩,
      decide_eq_true rfl⟩
    rw [work?, show workIn? (.ofConfig config' ttl u.stamp u.now) type = some collect from hsame]
    rfl
  obtain ⟨j, hj⟩ := Option.isSome_iff_exists.1 (List.find?_isSome.2 hexists)
  have htype : j.type = u.job.type := by simpa using List.find?_some hj
  have hpass : ({ u with job := j } : Turn).OfPass config' ttl := List.mem_of_find?_eq_some hj
  obtain ⟨collect', hcollect', hwork⟩ := hpass.work
  obtain rfl : collect = collect' := by
    rw [← Option.some_inj, ← hsame, ← hcollect', htype]
    rfl
  rw [alone, hj, Option.map_some, hwork]

theorem OfPass.map_alone (hu : u.OfPass config ttl) {collect : String → Try Nat}
    (hcollect : workIn? (u.setting config ttl) u.job.type = some collect) :
    (config.projects.filterMap (u.alone config ttl)).map Job.work =
      config.projects.map fun project => Work.scopes collect [project] := by
  rw [List.map_filterMap, ← List.filterMap_eq_map]
  exact List.filterMap_congr fun project _ => hu.alone_work hcollect project

end Gcp.Turn

/-! ### Azure -/

namespace Azure

theorem readsOnly_publishVm (e : Emitter) (subscription : String) (v : VirtualMachine) :
    Work.ReadsOnly False (fun _ : Unit => ()) (publishVm e subscription v) := by
  unfold publishVm
  split
  case h_1 => exact Work.readsOnly_skip _ _
  case h_2 =>
    split
    case h_1 => exact Work.readsOnly_skip _ _
    case h_2 => exact (Work.readsOnly_emit _ _ _ _).bind fun _ => Work.readsOnly_pure 1

theorem readsOnly_vmsOf (config : AzureConfig) (e : Emitter) (subscription : String) :
    Work.ReadsOnly False (fun _ : Unit => ()) (vmsOf config e subscription).run :=
  Work.readsOnly_askTotal (readsOnly_publishVm e subscription)

/-- Finding out the subscriptions publishes nothing and warns of nothing. -/
theorem run_subscriptions_quiet (config : AzureConfig) (w : World Call Answer) (cancelled : Bool) :
    let told := (((subscriptions config).run.run ()).run w (.start cancelled)).2
    told.records = [] ∧ told.warnings = [] := by
  unfold subscriptions
  split
  · cases cancelled <;> exact ⟨rfl, rfl⟩
  · have hrun : ((Work.ask Call.listSubscriptions).run.run ()).run w (.start cancelled) =
        (.result (((Session.start cancelled).ask w .listSubscriptions).1, ()),
          ((Session.start cancelled).ask w .listSubscriptions).2) :=
      Program.run_call w _ _ _
    rw [hrun]
    exact ⟨Session.ask_records, Session.ask_warnings⟩

/-- The job for a single subscription. -/
def alone (config : AzureConfig) (stamp : Instant) (subscription : String) :
    Job Unit Call Answer :=
  ⟨.azureVm, subscription, Work.scopes (vmsOf config ⟨stamp, config.base.space⟩) [subscription]⟩

theorem map_alone (config : AzureConfig) (stamp : Instant) (ids : List String) :
    (ids.map (alone config stamp)).map Job.work =
      ids.map fun id => Work.scopes (vmsOf config ⟨stamp, config.base.space⟩) [id] :=
  List.map_map

/-- The job of a pass goes through the subscriptions, once it has obtained them. -/
theorem run_of_obtained {config : AzureConfig} {stamp : Instant} {job : Job Unit Call Answer}
    (hjob : job ∈ pass config stamp) {w : World Call Answer} {t told : Session Call}
    {ids : List String}
    (hobtained : ((subscriptions config).run.run ()).run w t = (.result (.ok ids, ()), told)) :
    (job.work.run ()).run w t =
      ((Work.scopes (vmsOf config ⟨stamp, config.base.space⟩) ids).run ()).run w told := by
  obtain rfl := eq_of_mem_pass hjob
  exact Work.run_bind_of_ok hobtained

end Azure

/-! ### Tasks -/

/-- A task that goes through scopes. One for Azure has obtained the subscriptions to go through. -/
inductive ScopedTask where
  | azure (config : AzureConfig) (stamp : Instant) (job : Job Unit Azure.Call Azure.Answer)
    (ofPass : job ∈ Azure.pass config stamp) (world : World Azure.Call Azure.Answer)
    (cancelled : Bool) (subscriptions : List String) (told : Session Azure.Call)
    (obtained : ((Azure.subscriptions config).run.run ()).run world (.start cancelled) =
      (.result (.ok subscriptions, ()), told))
  | gcp (config : GcpConfig) (ttl : Nat) (turn : Gcp.Turn) (ofPass : turn.OfPass config ttl)
    (caches : Gcp.Caches)

namespace ScopedTask

/-- What a task does. -/
def report : ScopedTask → JobReport
  | azure _ _ job _ world cancelled _ _ _ => (job.report world Azure.Call.words () cancelled).1
  | gcp _ _ turn _ caches => (turn.report caches).1

/-- What is done with each scope alone, the answers to its calls being those that the task has. -/
def apart : ScopedTask → List JobReport
  | azure config stamp _ _ world _ subscriptions told _ =>
    Job.reportApart world Azure.Call.words () (subscriptions.map (Azure.alone config stamp))
      told.calls.length told.cancelled
  | gcp config ttl turn _ caches => turn.apart config ttl caches

/-- Calls are answered alike, whatever has been called before, and shutdown never comes. -/
def Plain : ScopedTask → Prop
  | azure _ _ _ _ world cancelled _ _ _ => world.Plain ∧ cancelled = false
  | gcp _ _ turn _ _ => turn.world.Plain ∧ turn.cancelled = false

/-- What a task does that has one of the scopes only, for each of them. -/
def each : ScopedTask → List JobReport
  | azure config stamp _ _ world _ subscriptions _ _ =>
    (subscriptions.map (Azure.alone config stamp)).map fun j =>
      (j.report world Azure.Call.words () false).1
  | gcp config ttl turn _ caches =>
    (config.projects.filterMap (turn.alone config ttl)).map fun j =>
      (j.report turn.world Gcp.Call.words caches false).1

/-- The clock cannot tell when entries will expire that the task keeps. -/
def Untold : ScopedTask → Prop
  | azure .. => False
  | gcp _ ttl turn _ _ => Clock.tells turn.now ttl = false

theorem follows : ∀ task : ScopedTask, task.report.Follows task.apart
  | azure config stamp _ ofPass world cancelled subscriptions told obtained => by
    have hquiet := Azure.run_subscriptions_quiet config world cancelled
    rw [obtained] at hquiet
    exact Work.report_follows (Azure.readsOnly_vmsOf config _) Azure.Call.words
      (Azure.run_of_obtained ofPass obtained) (Azure.map_alone config stamp subscriptions)
      hquiet.1 hquiet.2
  | gcp config ttl turn ofPass caches => by
    obtain ⟨collect, hcollect, hwork⟩ := ofPass.work
    obtain ⟨_, view, hreads⟩ := Gcp.exists_readsOnly hcollect
    exact Work.report_follows (t := .start turn.cancelled) hreads Gcp.Call.words (by rw [hwork])
      (ofPass.map_alone hcollect) rfl rfl

theorem untold_of_panic : ∀ (task : ScopedTask), ∀ r ∈ task.apart, r.outcome = .panic →
    task.Untold
  | azure config stamp _ _ _ _ subscriptions _ _ =>
    Work.breaks_of_panic (Azure.readsOnly_vmsOf config _)
      (Azure.map_alone config stamp subscriptions)
  | gcp config ttl turn ofPass caches => by
    obtain ⟨collect, hcollect, -⟩ := ofPass.work
    obtain ⟨_, view, hreads⟩ := Gcp.exists_readsOnly hcollect
    exact Work.breaks_of_panic hreads (ofPass.map_alone hcollect)

theorem apart_eq_each : ∀ task : ScopedTask, task.Plain → task.apart = task.each
  | azure config stamp _ _ world cancelled subscriptions told obtained, ⟨hworld, hcancelled⟩ => by
    have htold := Program.run_cancelled_of_calm hworld.calm
      ((Azure.subscriptions config).run.run ()) (t := .start cancelled) hcancelled
    rw [obtained] at htold
    rw [apart, htold]
    exact Job.reportApart_eq_map hworld _ _ _ _
  | gcp config ttl turn _ caches, ⟨hworld, hcancelled⟩ => by
    rw [apart, Gcp.Turn.apart, hcancelled]
    exact Job.reportApart_eq_map hworld _ _ _ _

/-- CORRECT: a task does with its scopes what is done with each of them alone, one after another,
and ends as they end together, exactly when none of them breaks off. It stops after the first one
that does, and one does only where the clock cannot tell when entries of a cache will expire. Where
calls are answered alike whatever has been called before, what is done with a scope alone is what a
task does that has no other. -/
theorem scopes_isolated_iff (task : ScopedTask) :
    (task.report.Isolated task.apart ↔ ∀ r ∈ task.apart, r.outcome ≠ .panic) ∧
      task.report.Follows task.apart ∧
      (∀ r ∈ task.apart, r.outcome = .panic → task.Untold) ∧
      (task.Plain → task.apart = task.each) :=
  ⟨task.follows.isolated_iff, task.follows, task.untold_of_panic, task.apart_eq_each⟩

/-! ### A scope that breaks off -/

/-- There is a network in each of two projects. The first one has a link. -/
def firstLinked : World Gcp.Call Gcp.Answer where
  answer := fun _ call => match call with
    | .listNetworks project =>
      if project = "p" then .ok [⟨some "3", none, some "networks/3"⟩]
      else .ok [⟨some "4", none, none⟩]
    | .listSubnetworks _ => .ok []
    | .listInstances _ _ => .ok []
    | .listClusters _ => .ok []
  signal := fun _ _ => none

/-- Two projects. -/
def twoProjects : GcpConfig := ⟨.standard, ["p", "q"], [], none⟩

/-- The job for the networks of both projects. -/
def firstLinkedTurn : Gcp.Turn where
  stamp := .epoch
  now := 0
  job := ⟨.gcpVpc, "*",
    Work.scopes (Gcp.vpcsOf (.ofConfig twoProjects Clock.range .epoch 0)) ["p", "q"]⟩
  world := firstLinked
  cancelled := false

theorem firstLinkedTurn_ofPass : firstLinkedTurn.OfPass twoProjects Clock.range := by
  unfold Gcp.Turn.OfPass Gcp.pass
  refine List.mem_filterMap.2 ⟨.gcpVpc, ?_, rfl⟩
  decide +kernel

/-- The network of the second project is published if that is gone through alone, but not after the
first one, whose network would have to be kept for longer than the clock can tell. -/
theorem not_isolated_firstLinked : ∃ task : ScopedTask,
    task.each.map JobReport.outcome = [.panic, .ok 1] ∧ task.report.outcome = .panic ∧
      task.report.records = [] ∧ ¬ task.report.Isolated task.each := by
  let task : ScopedTask := .gcp twoProjects Clock.range firstLinkedTurn firstLinkedTurn_ofPass
    (.withCapacity 8)
  have houtcomes : task.each.map JobReport.outcome = [.panic, .ok 1] := by decide +kernel
  have hrecords : task.report.records = [] := by decide +kernel
  obtain ⟨hiff, hfollows, -, heach⟩ := scopes_isolated_iff task
  rw [heach ⟨⟨fun _ => rfl, fun _ _ => rfl⟩, rfl⟩] at hiff hfollows
  have hpanic : Outcome.panic ∈ task.each.map JobReport.outcome := by simp [houtcomes]
  refine ⟨task, houtcomes, hfollows.outcome.trans (if_pos hpanic), hrecords, fun hisolated => ?_⟩
  obtain ⟨r, hr, houtcome⟩ := List.mem_map.1 hpanic
  exact hiff.1 hisolated r hr houtcome

end ScopedTask

end CloudInventory
