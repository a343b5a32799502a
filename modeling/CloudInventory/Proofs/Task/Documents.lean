import CloudInventory.Proofs.Aws.Limits
import CloudInventory.Proofs.Gcp.Limits
import CloudInventory.Proofs.Task.Basic

/-!
The documents of what tasks publish. Whatever calls are answered and whatever the stores hold, tasks
of all providers publish plain records, with the namespace of their configuration. So the document
of a published record has one entry for everything that the record says, and tasks with one
namespace never publish different records with one document, but for the exact time.
-/

namespace CloudInventory

/-! ### Azure and Kubernetes -/

namespace Azure

variable {config : AzureConfig} {e : Emitter} {B : Prop} {Q : Call → Prop} {P : Record → Prop}

theorem keepsTo_publishVm (subscription : String) (v : VirtualMachine) :
    Work.KeepsTo B Q (Record.Plain e.space) (publishVm e subscription v) := by
  unfold publishVm
  split
  · exact Work.keepsTo_skip _ _
  · split
    · exact Work.keepsTo_skip _ _
    · refine Work.keepsTo_emit (Record.plain_compose ?_)
      simp only [List.forall_mem_append]
      refine ⟨⟨⟨?_, Patch.isPlain_maybeName _⟩, ?_⟩, ?_⟩
      all_goals simp [Patch.isPlain, Patch.entry]

theorem keepsTo_subscriptions :
    Work.KeepsTo B (· = .listSubscriptions) P (subscriptions config).run := by
  unfold subscriptions
  split
  · exact Work.keepsTo_checkpoint.attempt fun _ => Work.keepsTo_return _
  · exact Work.keepsTo_ask rfl

theorem keepsTo_of_mem_pass {stamp : Instant} {job : Job Unit Call Answer}
    (h : job ∈ pass config stamp) :
    Work.KeepsTo False (fun _ => True) (Record.Plain config.base.space) job.work.run := by
  obtain rfl := eq_of_mem_pass h
  refine (keepsTo_subscriptions.mono id fun _ _ => trivial).attempt fun ids =>
    Work.keepsTo_scopes fun id _ => ?_
  exact Work.keepsTo_askTotal trivial (keepsTo_publishVm (e := ⟨stamp, config.base.space⟩) id)

end Azure

namespace Kube

variable {e : Emitter} {fetches : Bool} {s : Stores}

theorem keepsTo_clusterParent {P : Record → Prop} (nodes : List Node) :
    Work.KeepsTo False (fun _ => True) P (clusterParent fetches nodes) := by
  unfold clusterParent
  split
  case h_1 => exact Work.keepsTo_pure _
  case h_2 first rest =>
    split
    case isTrue =>
      refine (Work.keepsTo_ask (c := Call.metadata) trivial).bind fun answer => ?_
      cases answer with
      | error cause => exact (Work.keepsTo_warn _).bind fun _ => Work.keepsTo_pure _
      | ok metadata =>
        show Work.KeepsTo _ _ _ (clusterOf metadata)
        unfold clusterOf
        split
        · exact Work.keepsTo_pure _
        · exact (Work.keepsTo_warn _).bind fun _ => Work.keepsTo_pure _
    case isFalse => exact Work.keepsTo_pure _

theorem keepsTo_collectNodes :
    Work.KeepsTo False (fun _ => True) (Record.Plain e.space) (collectNodes e fetches s).run := by
  refine (keepsTo_clusterParent _).lift.attempt fun cluster => ?_
  refine (Work.keepsTo_total fun n _ => ?_).lift
  unfold publishNode
  split
  · exact Work.keepsTo_skip _ _
  · refine Work.keepsTo_emit (Record.plain_compose ?_)
    simp only [List.forall_mem_append]
    refine ⟨⟨⟨⟨Patch.isPlain_maybeName _, ?_⟩, Patch.isPlain_nodeData _ _⟩, ?_⟩, ?_⟩
    all_goals simp [Patch.isPlain, Patch.entry, Patch.cloudInstanceId, Record.fieldKeys]

theorem keepsTo_collectPods :
    Work.KeepsTo False (fun _ => True) (Record.Plain e.space) (collectPods e s).run := by
  refine (Work.keepsTo_total fun p _ => ?_).lift
  unfold publishPod
  split
  · exact Work.keepsTo_skip _ _
  · refine Work.keepsTo_emit (Record.plain_compose ?_)
    simp only [List.forall_mem_append]
    exact ⟨⟨Patch.isPlain_maybeName _, Patch.isPlain_podData _ _ _ _⟩, by simp [Patch.isPlain]⟩

theorem keepsTo_collectContainers :
    Work.KeepsTo False (fun _ => True) (Record.Plain e.space) (collectContainers e s).run := by
  refine (Work.keepsTo_total fun p _ => ?_).lift
  unfold publishContainers
  split
  · exact Work.keepsTo_pure 0
  · refine Work.keepsTo_total fun c _ => ?_
    unfold publishContainer
    split
    · exact Work.keepsTo_pure 0
    · refine Work.keepsTo_emit (Record.plain_compose ?_)
      simp only [List.forall_mem_append]
      exact ⟨⟨Patch.isPlain_maybeName _, Patch.isPlain_containerData _ _ _ _ _⟩,
        by simp [Patch.isPlain]⟩

theorem keepsTo_of_mem_pass {config : KubeConfig} {stamp : Instant} {job : Job Unit Call Answer}
    (h : job ∈ pass config fetches stamp s) :
    Work.KeepsTo False (fun _ => True) (Record.Plain config.base.space) job.work.run := by
  obtain ⟨type, work, hwork, rfl⟩ := exists_of_mem_pass h
  show Work.KeepsTo _ _ (Record.Plain (Emitter.mk stamp config.base.space).space) work.run
  unfold work? at hwork
  split at hwork
  · exact Option.some.inj hwork ▸ keepsTo_collectNodes
  · exact Option.some.inj hwork ▸ keepsTo_collectPods
  · exact Option.some.inj hwork ▸ keepsTo_collectContainers
  · cases hwork

end Kube

/-! ### Tasks -/

namespace Task

/-- The namespace that a task's collector is configured with. -/
def space : Task → Option String
  | aws config _ _ _ _ _ => config.base.space
  | azure config _ _ _ _ _ => config.base.space
  | gcp config _ _ _ _ => config.base.space
  | kube config _ _ _ _ _ _ _ => config.base.space

theorem plain_of_mem_records (task : Task) {r : Record} (hr : r ∈ task.report.records) :
    r.Plain task.space := by
  cases task with
  | aws config stamp job ofPass world cancelled =>
    exact ((Aws.keepsTo_of_mem_pass ofPass).session world () cancelled).2 r hr
  | azure config stamp job ofPass world cancelled =>
    exact ((Azure.keepsTo_of_mem_pass ofPass).session world () cancelled).2 r hr
  | gcp config ttl turn ofPass caches =>
    obtain ⟨collect, hcollect, hwork⟩ := ofPass.work
    have hkeeps : Work.KeepsTo True (fun _ => True) (Record.Plain config.base.space)
        turn.job.work.run := by
      rw [hwork]
      exact Work.keepsTo_scopes fun project _ =>
        (Gcp.keepsTo_beginsWith hcollect project).1.mono id fun _ _ => trivial
    exact (hkeeps.session turn.world caches turn.cancelled).2 r hr
  | kube config fetches stamp stores job ofPass world cancelled =>
    exact ((Kube.keepsTo_of_mem_pass ofPass).session world () cancelled).2 r hr

/-- CORRECT: the entries of a published record have different keys, whatever names, tags and labels
it has, so that its document has just these entries: one for the time, for each attribute that is
set, for edges of a kind if there are any, and for each key of the metadata and the fields. And of
records that tasks with one namespace have published, those with equal documents are equal in
everything but the exact time. -/
theorem documents_faithful (task task' : Task) (hspace : task.space = task'.space)
    {r r' : Record} (hr : r ∈ task.report.records) (hr' : r' ∈ task'.report.records) :
    (r.entries.map Prod.fst).Nodup ∧ r.document.toList.Perm r.entries ∧
      r.document.size = r.extent ∧
      (r.document = r'.document → { r with timestamp := r'.timestamp } = r') := by
  have hplain := task.plain_of_mem_records hr
  have hplain' := task'.plain_of_mem_records hr'
  refine ⟨hplain.nodup_entries, hplain.document_perm, ?_,
    hplain.eq_of_document_eq (hspace ▸ hplain')⟩
  rw [← r.length_entries]
  exact hplain.document_perm.length_eq

/-! ### Tags like attributes -/

/-- A network is listed twice, with a tag that is called like an attribute and with another one. -/
def taggedVpcs : World Aws.Call Aws.Answer where
  answer := fun _ call => match call with
    | .describeVpcs _ =>
      .ok [⟨some "vpc-1", none, false, [⟨some "cloud.region", some "s"⟩]⟩,
        ⟨some "vpc-1", none, false, [⟨some "cloud", some "s"⟩]⟩]
    | .describeInstances _ => .ok []
    | .describeSubnets _ => .ok []
    | .listClusters _ => .ok []
    | .describeCluster _ _ => .ok ⟨none, none, none, none, .empty⟩
    | .listNodegroups _ _ => .ok []
    | .describeNodegroup _ _ _ => .ok ⟨none, none⟩
    | .describeAutoScalingGroups _ _ => .ok []
  signal := fun _ _ => none

/-- Networks in a single region are collected. -/
def vpcsInRegion : AwsConfig := ⟨.standard, ["r"], none, none, none⟩

def vpcsJob : Job Unit Aws.Call Aws.Answer :=
  ⟨.awsVpc, "r", Aws.collectVpcs ⟨.epoch, none⟩ "r"⟩

theorem vpcsJob_mem_pass : vpcsJob ∈ Aws.pass vpcsInRegion .epoch := by
  refine List.mem_flatMap.2 ⟨"r", List.mem_singleton_self _, List.mem_filterMap.2 ?_⟩
  refine ⟨.awsVpc, ?_, rfl⟩
  decide +kernel

/-- The documents have all entries of the records, and they are different. -/
theorem documents_taggedVpcs : ∃ (task : Task) (r r' : Record), r ∈ task.report.records ∧
    r' ∈ task.report.records ∧ r.id = r'.id ∧ r.metadata.keys = ["isDefault", "tags.cloud.region"] ∧
      r.document.size = 9 ∧ r.document ≠ r'.document := by
  let task : Task := .aws vpcsInRegion .epoch vpcsJob vpcsJob_mem_pass taggedVpcs false
  have hrecords : task.report.records.map (fun r => (r.id, r.extent, r.metadata.keys)) =
      [(some "vpc-1", 9, ["isDefault", "tags.cloud.region"]),
        (some "vpc-1", 9, ["isDefault", "tags.cloud"])] := by
    decide +kernel
  obtain ⟨r, hr, hfirst⟩ := List.mem_map.1 (hrecords ▸ List.mem_cons_self)
  obtain ⟨r', hr', hsecond⟩ := List.mem_map.1
    (hrecords ▸ List.mem_cons_of_mem _ (List.mem_singleton_self _))
  simp only [Prod.mk.injEq] at hfirst hsecond
  obtain ⟨hid, hextent, hkeys⟩ := hfirst
  obtain ⟨hid', -, hkeys'⟩ := hsecond
  obtain ⟨-, -, hsize, hequal⟩ := documents_faithful task task rfl hr hr'
  refine ⟨task, r, r', hr, hr', hid.trans hid'.symm, hkeys, hsize.trans hextent,
    fun hdocument => ?_⟩
  have hsame : r.metadata.keys = r'.metadata.keys := by rw [← hequal hdocument]
  rw [hkeys, hkeys'] at hsame
  exact absurd hsame (by decide)

end Task

end CloudInventory
