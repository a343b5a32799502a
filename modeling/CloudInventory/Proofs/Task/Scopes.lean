import CloudInventory.Proofs.Aws.Limits
import CloudInventory.Proofs.Gcp.Limits
import CloudInventory.Proofs.Program.Series
import CloudInventory.Proofs.Task.Cancellation
import CloudInventory.Proofs.Task.Isolation
import Mathlib.Data.List.ProdSigma

/-!
The scopes of tasks. The scope of a task is settled when its pass is made up, and what the task
covers is seen from its calls. A task for Amazon calls for the region that is its scope. Those for
Google Cloud and Kubernetes have the scope `*` and cover all projects or the whole of the stores. A
task for Azure lists the machines of the subscription that is its scope, or has the scope `*` and
lists the subscriptions, with two exceptions, of which the main statement says that they are the
only ones: an empty subscription is taken as none when subscriptions are obtained and as one when
the pass is made up, and a subscription may itself be called `*`.
-/

namespace CloudInventory

/-! ### Azure -/

namespace Session

variable {Call : Type} {Answer : Call → Type} {w : World Call Answer} {t : Session Call}

theorem asking_of_cancelled (h : t.cancelled = true) : ∀ cs : List Call, t.asking w cs = t
  | [] => rfl
  | c :: cs => by
    rw [asking, List.foldl_cons, ask_of_cancelled h]
    exact asking_of_cancelled h cs

theorem calls_prefix_asking : ∀ (cs : List Call) (t : Session Call),
    t.calls <+: (t.asking w cs).calls
  | [], _ => List.prefix_rfl
  | c :: cs, t => ask_calls.trans (calls_prefix_asking cs (t.ask w c).2)

/-- Of calls made one after another the first few are made. -/
theorem asking_calls_prefix : ∀ (cs : List Call) (t : Session Call),
    (t.asking w cs).calls <+: t.calls ++ cs
  | [], t => by rw [List.append_nil]; exact List.prefix_rfl
  | c :: cs, t => by
    cases h : t.cancelled with
    | true => rw [asking_of_cancelled h]; exact List.prefix_append _ _
    | false =>
      have hrest := asking_calls_prefix cs (t.ask w c).2
      rwa [(ask_calls_of_go h c).1, List.append_assoc, List.singleton_append] at hrest

end Session

namespace Azure

variable {w : World Call Answer} {config : AzureConfig} {e : Emitter}

theorem ensures_vmsOf (subscription : String) {t : Session Call} :
    Work.Ensures w (fun _ _ => False) (vmsOf config e subscription).run () t fun _ _ t' =>
      t'.Abreast (t.ask w (.listVms subscription)).2 := by
  refine Work.ensures_askTotal (fun _ _ => .refl _) fun vms _ => ?_
  refine Work.ensures_total (fun _ _ t' => t'.Abreast (t.ask w (.listVms subscription)).2) ?_
    (.refl _)
  rintro done v - ⟨⟩ t' ⟨hcalls, hcancelled⟩
  unfold publishVm
  split
  · exact Work.ensures_skip fun _ => ⟨hcalls, hcancelled⟩
  · split
    · exact Work.ensures_skip fun _ => ⟨hcalls, hcancelled⟩
    · exact Work.ensures_bind (Work.ensures_publish (Work.ensures_pure ⟨hcalls, hcancelled⟩))

/-- The machines of all subscriptions are listed, in order. -/
theorem ensures_listed (ids : List String) {t : Session Call} :
    Work.Ensures w (fun _ _ => False) (Work.scopes (vmsOf config e) ids).run () t fun _ _ t' =>
      t'.Abreast (t.asking w (ids.map .listVms)) := by
  refine Work.ensures_scopes (fun done _ t' => t'.Abreast (t.asking w (done.map .listVms))) ?_
    (.refl t)
  rintro done id - ⟨⟩ t₁ habreast
  refine (ensures_vmsOf id).mono fun _ _ t' h warnings => ?_
  have hwarned : ({ t' with warnings } : Session Call).Abreast t' := ⟨rfl, rfl⟩
  rw [List.map_append, List.map_singleton, Session.asking_concat]
  exact hwarned.trans (h.trans (habreast.ask _).2)

/-- The calls for the machines of the subscriptions that are listed, if these are. -/
def listed (w : World Call Answer) : List Call :=
  match w.answer 0 .listSubscriptions with
  | .ok ids => ids.map .listVms
  | .error _ => []

/-- Without a subscription all are obtained by a listing. -/
theorem ensures_obtained (hnone : config.subscriptionId.bind Text.nonEmpty = none) :
    Work.Ensures w (fun _ _ => False) (collectVms config e).run () (.start false) fun _ _ t' =>
      .listSubscriptions ∈ t'.calls ∧ t'.calls <+: .listSubscriptions :: listed w := by
  have hcalls := (Session.ask_calls_of_go (w := w) (t := .start false) rfl .listSubscriptions).1
  have hsubscriptions : subscriptions config = Work.ask Call.listSubscriptions := by
    unfold subscriptions
    rw [hnone]
  refine Work.ensures_attempt ?_
  rw [hsubscriptions]
  refine Work.ensures_ask ?_
  cases hanswer : ((Session.start false).ask w Call.listSubscriptions).1 with
  | error cause =>
    show _ ∈ ((Session.start false).ask w Call.listSubscriptions).2.calls ∧ _
    rw [hcalls]
    exact ⟨List.mem_singleton_self _, List.prefix_append _ _⟩
  | ok ids =>
    refine (ensures_listed ids).mono fun _ _ t' habreast => ?_
    have hlisted : listed w = ids.map .listVms := by
      obtain ⟨k, hk, -, hok⟩ := Session.heard_of_ask hanswer
      rw [hcalls] at hk
      obtain rfl : k = 0 := by
        have := (List.getElem?_eq_some_iff.1 hk).1
        simpa [Session.start] using this
      rw [listed, hok]
    rw [habreast.calls, hlisted]
    have hprefix := Session.asking_calls_prefix (w := w) (ids.map .listVms)
      ((Session.start false).ask w Call.listSubscriptions).2
    rw [hcalls] at hprefix
    refine ⟨(Session.calls_prefix_asking _ _).subset ?_, hprefix⟩
    rw [hcalls]
    exact List.mem_singleton_self _

variable {stamp : Instant} {job : Job Unit Call Answer}

/-- With a subscription its machines are listed, and nothing else. -/
theorem calls_of_given {id : String} (hid : config.subscriptionId.bind Text.nonEmpty = some id)
    (h : job ∈ pass config stamp) : (job.ending w () false).2.calls = [.listVms id] := by
  have hobtained : ((subscriptions config).run.run ()).run w (.start false) =
      (.result (.ok [id], ()), .start false) := by
    unfold subscriptions
    rw [hid]
    rfl
  have hrun : job.ending w () false = _ := run_of_obtained h hobtained
  have hcalls := (Session.ask_calls_of_go (w := w) (t := .start false) rfl (.listVms id)).1
  rw [hrun]
  exact (ensures_listed [id] (t := .start false)).session.calls.trans hcalls

theorem calls_of_none (hnone : config.subscriptionId.bind Text.nonEmpty = none)
    (h : job ∈ pass config stamp) :
    .listSubscriptions ∈ (job.ending w () false).2.calls ∧
      (job.ending w () false).2.calls <+: .listSubscriptions :: listed w := by
  obtain rfl := eq_of_mem_pass h
  exact (ensures_obtained hnone).session

theorem scope_of_mem_pass (h : job ∈ pass config stamp) :
    job.scope = config.subscriptionId.getD "*" := by
  obtain rfl := eq_of_mem_pass h
  rfl

/-- A scope says what calls cover: `*` stands for the subscriptions that are listed, and anything
else for the one subscription that it is. -/
structure Agrees (w : World Call Answer) (scope : String) (calls : List Call) : Prop where
  starred : scope = "*" ↔ .listSubscriptions ∈ calls
  all : scope = "*" → calls <+: .listSubscriptions :: listed w
  named : scope ≠ "*" → calls = [.listVms scope]

/-- The configured subscription is not empty, and is not called like the scope of them all. -/
def Named (config : AzureConfig) : Prop :=
  config.subscriptionId ≠ some "" ∧ config.subscriptionId ≠ some "*"

theorem agrees_iff (h : job ∈ pass config stamp) :
    Agrees w job.scope (job.ending w () false).2.calls ↔ Named config := by
  have hscope := scope_of_mem_pass h
  unfold Named
  cases hid : config.subscriptionId with
  | none =>
    obtain ⟨hmem, hprefix⟩ := calls_of_none (w := w) (by rw [hid]; rfl) h
    rw [hid] at hscope
    refine iff_of_true ⟨iff_of_true hscope hmem, fun _ => hprefix, fun hne => ?_⟩ (by simp)
    exact absurd hscope hne
  | some id =>
    obtain rfl : job.scope = id := by rw [hscope, hid]; rfl
    by_cases hempty : job.scope = ""
    · -- the subscriptions are listed, but the scope is empty
      obtain ⟨hmem, -⟩ := calls_of_none (w := w) (by rw [hid, hempty]; rfl) h
      refine iff_of_false (fun hagrees => ?_) (by simp [hempty])
      exact absurd (hagrees.starred.2 hmem) (by rw [hempty]; decide)
    · have hcalls := calls_of_given (w := w)
        (by rw [hid]; exact Text.nonEmpty_eq_some_iff.2 ⟨rfl, hempty⟩) h
      have hlists : .listSubscriptions ∉ (job.ending w () false).2.calls := by simp [hcalls]
      by_cases hstar : job.scope = "*"
      · -- the scope stands for all, but no subscriptions are listed
        exact iff_of_false (fun hagrees => hlists (hagrees.starred.1 hstar)) (by simp [hstar])
      · refine iff_of_true
          ⟨iff_of_false hstar hlists, fun he => absurd he hstar, fun _ => hcalls⟩ ?_
        exact ⟨by simpa using hempty, by simpa using hstar⟩

end Azure

/-! ### Google Cloud -/

namespace Gcp

/-- Calls cover projects: each is for one of them, and when nothing comes between there is one for
each of them. -/
structure Covers (config : GcpConfig) (calls : List Call) (through : Prop) : Prop where
  within : ∀ c ∈ calls, ∃ project ∈ config.projects, c.For config.regions project
  all : through → ∀ project ∈ config.projects, ∃ c ∈ calls, c.For config.regions project

namespace Turn

variable {config : GcpConfig} {ttl : Nat} {u : Turn} {s : Caches}

/-- Shutdown is never signalled, and the job does not break off. -/
def Undisturbed (u : Turn) (s : Caches) : Prop :=
  u.cancelled = false ∧ (∀ k c, u.world.signal k c = none) ∧ (u.report s).1.outcome ≠ .panic

theorem OfPass.covers (hu : u.OfPass config ttl) :
    Covers config (u.job.ending u.world s u.cancelled).2.calls (u.Undisturbed s) := by
  obtain ⟨collect, hcollect, hwork⟩ := hu.work
  have hprojects := keepsTo_beginsWith hcollect
  refine ⟨?_, fun ⟨hgo, hcalm, hends⟩ => ?_⟩
  · have hkeeps : Work.KeepsTo True
        (fun c => ∃ project ∈ config.projects, c.For config.regions project)
        (Record.Plain config.base.space) u.job.work.run := by
      rw [hwork]
      exact Work.keepsTo_scopes fun project hproject =>
        (hprojects project).1.mono id fun c hc => ⟨project, hproject, hc⟩
    exact (hkeeps.session u.world s u.cancelled).1
  · have hbegun := Work.ensures_scopes_begun (fun project => (hprojects project).2) hcalm (s := s)
      (t := .start u.cancelled) hgo config.projects
    rw [← hwork] at hbegun
    obtain ⟨left, t', hrun, -⟩ | ⟨result, s', t', hrun, hcalled⟩ := hbegun.ends
    · have hpanic : (u.report s).1.outcome = .panic := by
        rw [report, Job.report_of_brokenOff hrun]
      exact absurd hpanic hends
    · have hending : u.job.ending u.world s u.cancelled = (.result (result, s'), t') := hrun
      rw [hending]
      exact hcalled

theorem OfPass.scope_eq (hu : u.OfPass config ttl) : u.job.scope = "*" := by
  obtain ⟨type, -, hjob⟩ := List.mem_filterMap.1 hu
  obtain ⟨work, -, he⟩ := Option.map_eq_some_iff.1 hjob
  rw [← he]

end Turn

end Gcp

/-! ### Passes -/

/-- A pass of some provider. -/
inductive Pass where
  | aws (config : AwsConfig) (stamp : Instant)
  | azure (config : AzureConfig) (stamp : Instant)
  | gcp (config : GcpConfig) (ttl : Nat) (stamp : Instant) (now : Nat)
  | kube (config : KubeConfig) (fetches : Bool) (stamp : Instant) (stores : Kube.Stores)

/-- The scope and the type of a job. -/
def Job.heading {σ Call : Type} {Answer : Call → Type} (j : Job σ Call Answer) :
    String × AssetType := (j.scope, j.type)

/-- The types of a provider that are to be collected. -/
def BaseConfig.enabled (b : BaseConfig) (p : Provider) : List AssetType := p.types.filter b.enables

namespace Pass

/-- The headings of the jobs. -/
def headings : Pass → List (String × AssetType)
  | aws config stamp => (Aws.pass config stamp).map Job.heading
  | azure config stamp => (Azure.pass config stamp).map Job.heading
  | gcp config ttl stamp now => (Gcp.pass config ttl stamp now).map Job.heading
  | kube config fetches stamp stores => (Kube.pass config fetches stamp stores).map Job.heading

/-- The scopes that there are jobs for. -/
def scopes : Pass → List String
  | aws config _ => config.regions
  | azure config _ => [config.subscriptionId.getD "*"]
  | gcp _ _ _ _ | kube _ _ _ _ => ["*"]

/-- The types that there are jobs for in each scope. -/
def types : Pass → List AssetType
  | aws config _ => config.base.enabled .aws
  | azure config _ => config.base.enabled .azure
  | gcp config _ _ _ => config.base.enabled .gcp
  | kube config _ _ _ => config.base.enabled .kube

/-- The jobs for one scope: one for each type that the provider has. -/
theorem map_heading {σ Call : Type} {Answer : Call → Type}
    {work? : AssetType → Option (Attempt σ Call Answer Nat)} (scope : String) :
    ∀ {types : List AssetType}, (∀ type ∈ types, (work? type).isSome) →
      (types.filterMap fun type => (work? type).map fun work =>
        (⟨type, scope, work⟩ : Job σ Call Answer)).map Job.heading =
      types.map fun type => (scope, type)
  | [], _ => rfl
  | type :: types, h => by
    obtain ⟨work, hwork⟩ := Option.isSome_iff_exists.1 (h type List.mem_cons_self)
    have hrest := map_heading scope fun t ht => h t (List.mem_cons_of_mem type ht)
    rw [List.filterMap_cons_some (by rw [hwork]; rfl), List.map_cons, List.map_cons, hrest]
    rfl

/-- A pass has one job for each scope and type, in order. -/
theorem headings_eq (p : Pass) : p.headings = p.scopes.product p.types := by
  cases p with
  | aws config stamp =>
    rw [headings, Aws.pass, List.map_flatMap]
    refine List.flatMap_congr fun region _ => map_heading region fun type htype => ?_
    have htype := (List.mem_filter.1 htype).1
    simp only [Provider.types, List.mem_cons, List.not_mem_nil, or_false] at htype
    rcases htype with rfl | rfl | rfl | rfl <;> rfl
  | azure config stamp =>
    rw [headings, Azure.pass, scopes, types, BaseConfig.enabled]
    cases h : config.base.enables .azureVm <;> simp [Provider.types, h, List.product, Job.heading]
  | gcp config ttl stamp now =>
    rw [scopes, List.product, List.flatMap_singleton]
    refine map_heading "*" fun type htype => ?_
    have htype := (List.mem_filter.1 htype).1
    simp only [Provider.types, List.mem_cons, List.not_mem_nil, or_false] at htype
    rcases htype with rfl | rfl | rfl | rfl <;> rfl
  | kube config fetches stamp stores =>
    rw [scopes, List.product, List.flatMap_singleton]
    refine map_heading "*" fun type htype => ?_
    have htype := (List.mem_filter.1 htype).1
    simp only [Provider.types, List.mem_cons, List.not_mem_nil, or_false] at htype
    rcases htype with rfl | rfl | rfl <;> rfl

end Pass

/-! ### Tasks -/

namespace Task

/-- What the scope of a task says agrees with what the task covers. A task for Azure that begins
after the signal makes no call. -/
def ScopeAgrees (task : Task) : Prop :=
  match task with
  | aws _ _ job _ world cancelled =>
    ∀ c ∈ (job.ending world () cancelled).2.calls, c.region = job.scope
  | azure _ _ job _ world cancelled =>
    cancelled = false → Azure.Agrees world job.scope (job.ending world () cancelled).2.calls
  | gcp config _ turn _ caches =>
    turn.job.scope = "*" ∧ Gcp.Covers config
      (turn.job.ending turn.world caches turn.cancelled).2.calls (turn.Undisturbed caches)
  | kube _ _ _ stores job _ world cancelled =>
    job.scope = "*" ∧ List.Forall₂ (fun id r => r.id = some id) (Kube.stored stores job.type)
      (job.ending world () cancelled).2.records

/-- A task for Azure that makes calls has been given a subscription with a proper name, or none. -/
def Scoped : Task → Prop
  | azure config _ _ _ _ cancelled => cancelled = false → Azure.Named config
  | _ => True

theorem agrees_iff (task : Task) : task.ScopeAgrees ↔ task.Scoped := by
  cases task with
  | aws config stamp job ofPass world cancelled =>
    refine iff_of_true ?_ trivial
    exact ((Aws.keepsTo_of_mem_pass ofPass).session world () cancelled).1
  | azure config stamp job ofPass world cancelled =>
    refine forall_congr' fun hgo => ?_
    subst hgo
    exact Azure.agrees_iff ofPass
  | gcp config ttl turn ofPass caches =>
    exact iff_of_true ⟨ofPass.scope_eq, ofPass.covers⟩ trivial
  | kube config fetches stamp stores job ofPass world cancelled =>
    have hscope : job.scope = "*" := by
      obtain ⟨type, work, -, rfl⟩ := Kube.exists_of_mem_pass ofPass
      rfl
    refine iff_of_true ⟨hscope, ?_⟩ trivial
    exact (Kube.ensures_stored ofPass (w := world) (t := .start cancelled) rfl).session

/-- CORRECT: a pass has one job for each scope and each enabled type, in order: for Amazon the
scopes are the configured regions, and for the others there is one scope. The scope of a task agrees
with its calls, whatever they are answered, unless the task is for Azure and has been given a
subscription that is empty or called `*`. -/
theorem scope_agrees_iff (pass : Pass) (task : Task) :
    pass.headings = pass.scopes.product pass.types ∧ (task.ScopeAgrees ↔ task.Scoped) :=
  ⟨pass.headings_eq, task.agrees_iff⟩

/-! ### An empty subscription -/

/-- There is one subscription, without machines. -/
def oneSubscription : World Azure.Call Azure.Answer where
  answer := fun _ call => match call with
    | .listSubscriptions => .ok ["s"]
    | .listVms _ => .ok []
  signal := fun _ _ => none

/-- The subscription has been left empty. -/
def emptySubscription : AzureConfig := ⟨.standard, [], none, none, none, some "", none⟩

/-- The job for it. -/
def emptySubscriptionJob : Job Unit Azure.Call Azure.Answer :=
  ⟨.azureVm, "", Azure.collectVms emptySubscription ⟨.epoch, none⟩⟩

/-- The scope is empty, and all subscriptions are covered. -/
theorem not_agrees_emptySubscription : ∃ task : Task,
    task.report.scope = "" ∧
      task.report.calls = [["list_subscriptions"], ["list_vms", "s"]] ∧ ¬ task.ScopeAgrees := by
  let task : Task := .azure emptySubscription .epoch emptySubscriptionJob
    (by exact List.mem_singleton_self _) oneSubscription false
  obtain ⟨-, hiff⟩ := scope_agrees_iff (.azure emptySubscription .epoch) task
  exact ⟨task, rfl, by decide +kernel, fun hagrees => (hiff.1 hagrees rfl).1 rfl⟩

end Task

end CloudInventory
