import CloudInventory.Proofs.Aws.Cancellation
import CloudInventory.Proofs.Azure.Cancellation
import CloudInventory.Proofs.Gcp.Cancellation
import CloudInventory.Proofs.Kube.Cancellation
import CloudInventory.Proofs.Task.Basic

/-!
What shutdown does to tasks. A task is set beside the same task in the calm world, where calls are
answered alike and shutdown never comes. An answer that a task has received before the signal tells
of the ids of the items in it; a task for Kubernetes knows of those in the stores from the start.
The main statement is that shutdown, whenever it is signalled, starts no call and keeps what was
finished: the task has published the records for the ids told of by then, up to edges, and no
others.
-/

namespace CloudInventory

section Jobs

variable {σ Call : Type} {Answer : Call → Type} {w : World Call Answer} {s : σ} {cancelled : Bool}

/-! ### One job -/

namespace Job

/-- How a job ends, and what has happened by then. -/
def ending (j : Job σ Call Answer) (w : World Call Answer) (s : σ) (cancelled : Bool) :
    Ending σ (Except CollectorError Nat × σ) × Session Call :=
  (j.work.run.run s).run w (.start cancelled)

/-- No call is made after the signal, and none at all if it has come before the job. -/
structure Quiet (j : Job σ Call Answer) (w : World Call Answer) (s : σ) (cancelled : Bool) :
    Prop where
  before : cancelled = true → (j.ending w s cancelled).2.calls = []
  overtaken : (j.ending w s cancelled).2.Obeys w

theorem quiet (j : Job σ Call Answer) (w : World Call Answer) (s : σ) (cancelled : Bool) :
    j.Quiet w s cancelled where
  before := fun h => Program.run_calls_of_cancelled _ h
  overtaken := Program.run_obeys _ fun _ _ hk => nomatch hk

/-- A job has no result if and only if it breaks off. -/
theorem outcome_eq_panic_iff (j : Job σ Call Answer) (words : Call → List String) :
    (j.report w words s cancelled).1.outcome = .panic ↔
      ∃ left, (j.ending w s cancelled).1 = .brokenOff left := by
  rw [report, ending]
  generalize (j.work.run.run s).run w (.start cancelled) = ended
  rcases ended with ⟨left | ⟨result, s'⟩, t'⟩
  · exact iff_of_true rfl ⟨left, rfl⟩
  · cases result <;> simp [Outcome.ofResult]

/-- What has been told of before the signal is the first part of what is told of in the calm
world. -/
theorem told_calm {ι : Type} (j : Job σ Call Answer) (w : World Call Answer) (s : σ)
    (cancelled : Bool) (tell : (c : Call) → Answer c → List ι) :
    (j.ending w s cancelled).2.told w tell <+: (j.ending w.calm s false).2.told w.calm tell := by
  cases cancelled with
  | true =>
    rw [ending, Program.told_run_of_cancelled tell _ rfl]
    exact List.nil_prefix
  | false => exact Program.told_run_calm tell _ rfl rfl

end Job

/-- There is a record for each of some ids; or only for the first few of them, if the run has broken
off. -/
structure Accounted {α : Type} (ids : List String) (x : Ending σ α × Session Call) : Prop where
  records : List.Forall₂ (fun id r => r.id = some id) (ids.take x.2.records.length) x.2.records
  complete : (∀ left, x.1 ≠ .brokenOff left) → x.2.records.length = ids.length

theorem Accounted.length_le {α : Type} {ids : List String} {x : Ending σ α × Session Call}
    (h : Accounted ids x) : x.2.records.length ≤ ids.length := by
  rw [← h.records.length_eq]
  exact List.length_take_le' _ _

/-- Work that never breaks off and publishes a record for each id. -/
theorem accounted_of_ensures {m : Work σ Call Answer (Except CollectorError Nat)}
    (ids : Session Call → List String) {t : Session Call}
    (h : Work.Ensures w (fun _ _ => False) m s t fun _ _ t' =>
      List.Forall₂ (fun id r => r.id = some id) (ids t') t'.records) :
    Accounted (ids ((m s).run w t).2) ((m s).run w t) := by
  obtain ⟨result, s', t', hrun, hids⟩ := h.exists_result
  have hlength : t'.records.length = (ids t').length := hids.length_eq.symm
  rw [hrun]
  exact ⟨(List.take_of_length_le hlength.ge).symm ▸ hids, fun _ => hlength⟩

theorem accounted_of_collects {m : Attempt σ Call Answer Nat}
    {tell : (c : Call) → Answer c → List String} (h : (Account.ids σ w tell).Collects m) :
    Accounted (((m.run.run s).run w (.start cancelled)).2.told w tell)
      ((m.run.run s).run w (.start cancelled)) := by
  refine accounted_of_ensures (fun t' => t'.told w tell) ?_
  exact ((h s _ ⟨trivial, .nil⟩).weaken fun _ _ => Account.not_brokenOff_ids).mono
    fun _ _ _ hsettled => hsettled.records

/-- What a job keeps in the face of shutdown: its report is set beside that of the calm world, and
the ids that it has been told of before the signal beside all those that it is told of in the calm
world. -/
structure JobReport.Keeps (report : JobReport) (ids : List String) (calm : JobReport)
    (calmIds : List String) : Prop where
  /-- What is published is the first part of what is published in the calm world, up to edges. -/
  inOrder : report.records.map Record.bare <+: calm.records.map Record.bare
  /-- What has been told of before the signal is the first part of all that is told of. -/
  told : ids <+: calmIds
  /-- In the calm world there is a record for each id, one after another. -/
  sources : List.Forall₂ (fun id r => r.id = some id) (calmIds.take calm.records.length)
    calm.records
  /-- Only if the job breaks off there are ids without a record. -/
  complete : calm.outcome ≠ .panic → calm.records.length = calmIds.length
  /-- The records for what has been told of before the signal are published, and no others. -/
  kept : report.records.map Record.bare = (calm.records.map Record.bare).take ids.length

/-- Of two runs that are accounted for, the one behind has the records for its ids. -/
theorem Behind.kept {α : Type} {x y : Ending σ α × Session Call} (h : Behind x y)
    {ids : List String} (hx : Accounted ids x) :
    x.2.records.map Record.bare = (y.2.records.map Record.bare).take ids.length := by
  rcases hending : x.1 with left | result
  · have hsame := h.2 left hending
    rw [← hsame, List.take_of_length_le]
    rw [List.length_map]
    exact hx.length_le
  · have hlength : x.2.records.length = ids.length :=
      hx.complete fun left hbroken => by rw [hbroken] at hending; cases hending
    have hprefix := List.prefix_iff_eq_take.1 h.1
    rwa [List.length_map, hlength] at hprefix

theorem Job.keeps {j : Job σ Call Answer} (hprompt : Work.PromptAnyhow j.work.run)
    (words : Call → List String) {ids calmIds : List String} (htold : ids <+: calmIds)
    (hids : Accounted ids (j.ending w s cancelled))
    (hcalm : Accounted calmIds (j.ending w.calm s false)) :
    (j.report w words s cancelled).1.Keeps ids (j.report w.calm words s false).1 calmIds where
  inOrder := (hprompt.run w s cancelled).1
  told := htold
  sources := hcalm.records
  complete := fun h => hcalm.complete fun left hbroken =>
    h ((j.outcome_eq_panic_iff words).2 ⟨left, hbroken⟩)
  kept := (hprompt.run w s cancelled).kept hids

/-- A job that publishes a record for each id that its calls tell of. -/
theorem Job.keeps_of_collects {j : Job σ Call Answer} (hprompt : Work.PromptAnyhow j.work.run)
    (words : Call → List String) {tell : (c : Call) → Answer c → List String}
    (hcollects : ∀ w, (Account.ids σ w tell).Collects j.work) :
    (j.report w words s cancelled).1.Keeps ((j.ending w s cancelled).2.told w tell)
      (j.report w.calm words s false).1 ((j.ending w.calm s false).2.told w.calm tell) :=
  Job.keeps hprompt words (j.told_calm w s cancelled tell) (accounted_of_collects (hcollects w))
    (accounted_of_collects (hcollects w.calm))

end Jobs

/-! ### Jobs for Google Cloud -/

namespace Gcp.Turn

variable {config : GcpConfig} {ttl : Nat} {u : Turn} {s : Caches}

/-- The same turn in the calm world. -/
def calm (u : Turn) : Turn := { u with world := u.world.calm, cancelled := false }

/-- The ids of the items that a turn is told of. -/
def toldIds (u : Turn) (config : GcpConfig) (s : Caches) : List String :=
  (u.told config s).map fun i => i.id?.getD ""

theorem id?_of_mem_told {i : Item} (hi : i ∈ u.told config s) : i.id? = some (i.id?.getD "") := by
  obtain ⟨c, a, hi⟩ := Session.exists_of_mem_told hi
  obtain ⟨id, hid⟩ := Option.isSome_iff_exists.1 (Item.isSome_id?_of_mem_tell hi)
  rw [hid, Option.getD_some]

theorem OfPass.accounted (hu : u.OfPass config ttl) :
    Accounted (u.toldIds config s) (u.job.ending u.world s u.cancelled) := by
  obtain ⟨hrecords, hends⟩ := hu.published_ids (s := s)
  refine ⟨?_, fun hends' => ?_⟩
  · show List.Forall₂ _ (((u.told config s).map _).take (u.report s).1.records.length) _
    rw [← List.map_take, List.forall₂_map_left_iff]
    have hids : ∀ i ∈ u.published config s, i.id? = some (i.id?.getD "") := fun i hi =>
      id?_of_mem_told (List.mem_of_mem_take hi)
    exact ((List.forall₂_and_left _ _).2 ⟨hids, hrecords⟩).imp fun i r hr =>
      hr.2.trans hr.1
  · rcases hends with ⟨-, htold⟩ | ⟨hbroken, -⟩
    · rw [htold] at hrecords
      rw [toldIds, List.length_map]
      exact hrecords.length_eq.symm
    · obtain ⟨left, hleft⟩ := (u.job.outcome_eq_panic_iff Call.words).1 hbroken
      exact absurd hleft (hends' left)

end Gcp.Turn

/-! ### Tasks -/

namespace Task

/-- The same task in the calm world. -/
def calm : Task → Task
  | aws config stamp job ofPass world _ => .aws config stamp job ofPass world.calm false
  | azure config stamp job ofPass world _ => .azure config stamp job ofPass world.calm false
  | gcp config ttl turn ofPass caches => .gcp config ttl turn.calm ofPass caches
  | kube config fetches stamp stores job ofPass world _ =>
    .kube config fetches stamp stores job ofPass world.calm false

/-- The ids of the items that a task has been told of before the signal. -/
def told : Task → List String
  | aws _ _ job _ world cancelled => (job.ending world () cancelled).2.told world Aws.tell
  | azure config _ job _ world cancelled =>
    (job.ending world () cancelled).2.told world (Azure.tell config)
  | gcp config _ turn _ caches => turn.toldIds config caches
  | kube _ _ _ stores job _ _ _ => Kube.stored stores job.type

/-- No call of a task is made after the signal. -/
def Quiet : Task → Prop
  | aws _ _ job _ world cancelled => job.Quiet world () cancelled
  | azure _ _ job _ world cancelled => job.Quiet world () cancelled
  | gcp _ _ turn _ caches => turn.job.Quiet turn.world caches turn.cancelled
  | kube _ _ _ _ job _ world cancelled => job.Quiet world () cancelled

/-- CORRECT: whenever shutdown is signalled and whatever calls are answered, a task makes no call
after the signal. Up to edges it publishes a first part of what it publishes in the calm world, and
this part is made up of the records for all that it has been told of before the signal. -/
theorem finished_kept (task : Task) :
    task.Quiet ∧ task.report.Keeps task.told task.calm.report task.calm.told := by
  cases task with
  | aws config stamp job ofPass world cancelled =>
    exact ⟨job.quiet world () cancelled, Job.keeps_of_collects (Aws.prompt_of_mem_pass ofPass) _
      fun _ => Aws.collectsId_of_mem_pass ofPass⟩
  | azure config stamp job ofPass world cancelled =>
    exact ⟨job.quiet world () cancelled, Job.keeps_of_collects (Azure.prompt_of_mem_pass ofPass) _
      fun _ => Azure.collectsId_of_mem_pass ofPass⟩
  | gcp config ttl turn ofPass caches =>
    have hcalm : turn.calm.OfPass config ttl := ofPass
    refine ⟨turn.job.quiet turn.world caches turn.cancelled, ?_⟩
    refine Job.keeps ofPass.prompt _ ?_ ofPass.accounted hcalm.accounted
    exact (turn.job.told_calm turn.world caches turn.cancelled _).map _
  | kube config fetches stamp stores job ofPass world cancelled =>
    have haccounted (w : World Kube.Call Kube.Answer) (cancelled : Bool) :
        Accounted (Kube.stored stores job.type) (job.ending w () cancelled) :=
      accounted_of_ensures (fun _ => Kube.stored stores job.type)
        (Kube.ensures_stored ofPass rfl)
    exact ⟨job.quiet world () cancelled, Job.keeps (Kube.prompt_of_mem_pass ofPass) _
      List.prefix_rfl (haccounted world cancelled) (haccounted world.calm false)⟩

/-! ### Clusters that are being described -/

/-- Two clusters with a machine each. Shutdown comes while the node groups of the first one are
listed. -/
def halfDescribed : World Aws.Call Aws.Answer where
  answer := fun _ call => match call with
    | .listClusters _ => .ok ["a", "b"]
    | .describeCluster _ name => .ok ⟨some name, some name, none, none, .empty⟩
    | .listNodegroups _ _ => .ok ["n"]
    | .describeNodegroup _ _ _ => .ok ⟨some "n", some ⟨[⟨some "g"⟩]⟩⟩
    | .describeAutoScalingGroups _ _ => .ok [⟨some "g", [⟨some "i"⟩]⟩]
    | .describeInstances _ => .ok []
    | .describeVpcs _ => .ok []
    | .describeSubnets _ => .ok []
  signal := fun k _ => if k = 2 then some .during else none

/-- The clusters that are published in a world, with their children. -/
def clustersIn (world : World Aws.Call Aws.Answer) : List (Option String × List Ean) :=
  let job : Job Unit Aws.Call Aws.Answer :=
    ⟨.cluster, "r", Aws.collectClusters ⟨.epoch, none⟩ "r"⟩
  (job.report world Aws.Call.words () false).1.records.map fun r => (r.id, r.children)

/-- The first cluster is published all the same, though without its machine. -/
example : clustersIn halfDescribed = [(some "a", [])] ∧
    clustersIn halfDescribed.calm = [(some "a", [⟨.host, "i"⟩]), (some "b", [⟨.host, "i"⟩])] := by
  decide +kernel

end Task

end CloudInventory
