import CloudInventory.Kube.Collector
import CloudInventory.Proofs.Program.Emits
import CloudInventory.Proofs.Record.Names

/-!
What the jobs for Kubernetes publish. Each tells how many records it has published, and all names in
them have ids: the id of the cluster comes from metadata that may be empty, that of a pod's node
from the store, and both are only used when there is something in them.
-/

namespace CloudInventory.Kube

variable {w : World Call Answer} {e : Emitter}

/-- Work that counts its records, all of whose names have ids. -/
abbrev Publishes (w : World Call Answer) (m : Step Nat) : Prop :=
  Work.Emits w (fun _ => True) (Record.Named Ean.HaveIds) m Work.Counts

theorem publishes_emit {type : AssetType} {id : String} {ps : List Patch} (hid : id ≠ "")
    (hps : ∀ p ∈ ps, p.Names Ean.HaveIds) : Publishes w (do e.emit type id ps; return 1) :=
  Work.emits_emit (Record.named_compose _ _ _ hid Ean.haveIds_nil hps)

/-- Parents of which there is at most one have ids if it has. -/
theorem names_parent {ean : Option Ean} (h : ∀ n ∈ ean, n.id ≠ "") :
    ∀ p ∈ ean.toList.map fun n => Patch.parents [n], p.Names Ean.HaveIds :=
  Patch.names_optional fun n hn => Ean.haveIds_singleton (h n hn)

/-! ### Nodes -/

/-- The name of the cluster has an id, if there is one. -/
theorem emits_clusterParent (fetches : Bool) (nodes : List Node) :
    Work.Emits w (fun _ => True) (Record.Named Ean.HaveIds) (clusterParent fetches nodes)
      fun cluster new => new = [] ∧ ∀ n ∈ cluster, n.id ≠ "" := by
  have hnone : ([] : List Record) = [] ∧ ∀ n ∈ (none : Option Ean), n.id ≠ "" :=
    ⟨rfl, fun n hn => nomatch hn⟩
  unfold clusterParent
  split
  case h_1 => exact Work.emits_pure hnone
  case h_2 first rest =>
    split
    case isFalse => exact Work.emits_pure hnone
    case isTrue =>
      refine Work.Emits.bind_silent (U := fun _ => True)
        (Work.emits_ask (fun _ => ⟨rfl, trivial⟩) fun _ _ _ => ⟨rfl, trivial⟩) fun answer _ => ?_
      cases answer with
      | error cause => exact Work.emits_warnThen (Work.emits_pure hnone)
      | ok metadata =>
        show Work.Emits _ _ _ (clusterOf metadata) _
        unfold clusterOf
        split
        case h_1 uid huid =>
          refine Work.emits_pure ⟨rfl, fun n hn => ?_⟩
          obtain rfl := Option.mem_some_iff.1 hn
          exact Text.ne_empty_of_bind_nonEmpty huid
        case h_2 => exact Work.emits_warnThen (Work.emits_pure hnone)

theorem publishes_node {cluster : Option Ean} (hcluster : ∀ n ∈ cluster, n.id ≠ "") (n : Node) :
    Publishes w (publishNode e cluster n) := by
  unfold publishNode
  split
  case h_1 => exact Work.emits_skip _ _
  case h_2 uid huid =>
    refine publishes_emit (Text.nonEmpty_eq_some_iff.1 huid).2 ?_
    simp only [List.forall_mem_append]
    refine ⟨⟨⟨⟨Patch.names_maybeName _, ?_⟩, ?_⟩, ?_⟩, names_parent hcluster⟩
    · simp [Patch.Names, Patch.entry]
    · simp [Patch.Names, Patch.nodeData]
    · simp [Patch.Names, Patch.cloudInstanceId]

/-! ### Pods and containers -/

theorem id_of_mem_hostOf? {s : Stores} {p : Pod} : ∀ n ∈ hostOf? s p, n.id ≠ "" := by
  intro n hn
  obtain ⟨uid, huid, rfl⟩ := Option.map_eq_some_iff.1 hn
  obtain ⟨node, -, huid⟩ := Option.bind_eq_some_iff.1 huid
  exact (Text.nonEmpty_eq_some_iff.1 huid).2

theorem publishes_pod (s : Stores) (p : Pod) : Publishes w (publishPod e s p) := by
  unfold publishPod
  split
  case h_1 => exact Work.emits_skip _ _
  case h_2 uid huid =>
    refine publishes_emit (Text.nonEmpty_eq_some_iff.1 huid).2 ?_
    simp only [List.forall_mem_append]
    refine ⟨⟨Patch.names_maybeName _, ?_⟩, names_parent id_of_mem_hostOf?⟩
    simp [Patch.Names, Patch.podData]

theorem id_of_runtimeId? {c : ContainerStatus} {id : String} (h : c.runtimeId? = some id) :
    id ≠ "" := by
  unfold ContainerStatus.runtimeId? at h
  split at h <;> exact (Text.nonEmpty_eq_some_iff.1 h).2

theorem publishes_container {p : Pod} (hp : p.metadata.uid ≠ "") (c : ContainerStatus) :
    Publishes w (publishContainer e p c) := by
  unfold publishContainer
  split
  case h_1 => exact Work.emits_pure rfl
  case h_2 id hid =>
    refine publishes_emit (id_of_runtimeId? hid) ?_
    simp only [List.forall_mem_append]
    refine ⟨⟨Patch.names_maybeName _, ?_⟩, ?_⟩
    · simp [Patch.Names, Patch.containerData]
    · simpa [Patch.Names] using Ean.haveIds_singleton hp

theorem publishes_containers (p : Pod) : Publishes w (publishContainers e p) := by
  unfold publishContainers
  split
  case isTrue => exact Work.emits_pure rfl
  case isFalse hp => exact Work.emits_total fun c _ => publishes_container hp c

/-! ### Passes -/

/-- Every job of a pass tells its records, all of whose names have ids. -/
theorem collects_of_mem_pass {config : KubeConfig} {fetches : Bool} {stamp : Instant}
    {stores : Stores} {job : Job Unit Call Answer} (h : job ∈ pass config fetches stamp stores) :
    Work.Emits w (fun _ => True) (Record.Named Ean.HaveIds) job.work.run Work.Tells := by
  obtain ⟨type, work, hwork, rfl⟩ := exists_of_mem_pass h
  unfold work? at hwork
  split at hwork
  · obtain rfl := Option.some.inj hwork
    refine Work.Emits.attempt (U := fun cluster => ∀ n ∈ cluster, n.id ≠ "") (Work.Emits.lift ?_)
      (fun _ => rfl) fun cluster hcluster => ?_
    · refine (emits_clusterParent fetches _).mono fun cluster new hnew => ⟨hnew.1, ?_⟩
      exact fun _ h => Except.ok.inj h ▸ hnew.2
    · exact (Work.emits_total fun n _ => publishes_node hcluster n).lift
  · obtain rfl := Option.some.inj hwork
    exact (Work.emits_total fun p _ => publishes_pod stores p).lift
  · obtain rfl := Option.some.inj hwork
    exact (Work.emits_total fun p _ => publishes_containers p).lift
  · cases hwork

end CloudInventory.Kube
