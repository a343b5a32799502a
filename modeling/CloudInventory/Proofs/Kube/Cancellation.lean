import CloudInventory.Kube.Collector
import CloudInventory.Proofs.Program.Ids
import CloudInventory.Proofs.Program.Prompt

/-!
Shutdown and the jobs for Kubernetes. What a job publishes is in the stores before it begins, so
that shutdown takes nothing from it but, for nodes, the cluster that they belong to.
-/

namespace CloudInventory.Kube

/-- The ids of the objects in the stores that a job for a type publishes. -/
def stored (s : Stores) : AssetType → List String
  | .node => s.nodes.values.flatMap fun n => (Text.nonEmpty n.metadata.uid).toList
  | .pod => s.pods.values.flatMap fun p => (Text.nonEmpty p.metadata.uid).toList
  | .container => s.pods.values.flatMap fun p =>
    if p.metadata.uid = "" then [] else p.containers.flatMap fun c => c.runtimeId?.toList
  | _ => []

variable {w : World Call Answer} {e : Emitter} {fetches : Bool} {s : Stores}

/-! ### Promptness -/

theorem silent_clusterParent (nodes : List Node) :
    Work.Silent Observer.deaf (clusterParent fetches nodes) := by
  unfold clusterParent
  split
  case h_1 => exact Work.silent_pure _
  case h_2 first rest =>
    split
    case isTrue =>
      refine (Work.silent_ask (c := Call.metadata) rfl).bind fun answer => ?_
      cases answer with
      | error cause => exact (Work.silent_warn _).bind fun _ => Work.silent_pure _
      | ok metadata =>
        show Work.Silent _ (clusterOf metadata)
        unfold clusterOf
        split
        · exact Work.silent_pure _
        · exact (Work.silent_warn _).bind fun _ => Work.silent_pure _
    case isFalse => exact Work.silent_pure _

theorem prompt_publishNode (cluster : Option Ean) (n : Node) :
    Work.Prompt Eq (fun _ => False) (publishNode e cluster n) := by
  unfold publishNode
  split
  · exact Work.prompt_skip _ _
  · exact Work.prompt_emit _ _ _ _

/-- The cluster that a node belongs to is left out of account. -/
theorem lags_publishNode (cluster cluster' : Option Ean) (n : Node) :
    Work.Lags Eq (fun _ => False) (publishNode e cluster n) (publishNode e cluster' n) := by
  unfold publishNode
  split
  · exact (Work.prompt_skip _ _).lags
  · refine Work.lags_emit _ _ _ ?_
    have hparents (ean : Option Ean) :
        (ean.toList.map fun n => Patch.parents [n]).filter (fun p => !p.setsEdges) = [] := by
      cases ean <;> rfl
    simp only [List.filter_append, hparents]

theorem prompt_collectNodes :
    Work.PromptAnyhow (collectNodes e fetches s).run := by
  show Work.Prompt _ _ (_ >>= _ : Try Nat).run
  rw [Work.run_lift_bind]
  refine (silent_clusterParent s.nodes.values).promptThen (fun cluster => ?_)
    fun cluster cluster' => ?_
  · exact (Work.prompt_total (prompt_publishNode cluster) _).stops.anyhow
  · have hnodes : Work.Lags (fun _ _ => True) (fun _ => True)
        (monadLift (Work.total (publishNode e cluster) s.nodes.values) : Try Nat).run
        (monadLift (Work.total (publishNode e cluster') (s.nodes.values ++ [])) : Try Nat).run :=
      Work.lags_lift_total (List.forall₂_same.2 fun n _ => lags_publishNode cluster cluster' n)
    rwa [List.append_nil] at hnodes

theorem prompt_publishPod (p : Pod) : Work.Prompt Eq (fun _ => False) (publishPod e s p) := by
  unfold publishPod
  split
  · exact Work.prompt_skip _ _
  · exact Work.prompt_emit _ _ _ _

theorem prompt_publishContainers (p : Pod) :
    Work.Prompt Eq (fun _ => False) (publishContainers e p) := by
  unfold publishContainers
  split
  · exact Work.prompt_pure rfl
  · refine Work.prompt_total (fun c => ?_) p.containers
    unfold publishContainer
    split
    · exact Work.prompt_pure rfl
    · exact Work.prompt_emit _ _ _ _

/-- Every job of a pass is prompt. -/
theorem prompt_of_mem_pass {config : KubeConfig} {stamp : Instant} {job : Job Unit Call Answer}
    (h : job ∈ pass config fetches stamp s) :
    Work.PromptAnyhow job.work.run := by
  obtain ⟨type, work, hwork, rfl⟩ := exists_of_mem_pass h
  unfold work? at hwork
  split at hwork
  · exact Option.some.inj hwork ▸ prompt_collectNodes
  · exact Option.some.inj hwork ▸ (Work.prompt_total prompt_publishPod _).stops.anyhow
  · exact Option.some.inj hwork ▸ (Work.prompt_total prompt_publishContainers _).stops.anyhow
  · cases hwork

/-! ### Ids -/

/-- The account of a job: its calls tell of no ids. -/
abbrev storedIds (w : World Call Answer) : Account Unit Call Answer String :=
  Account.ids Unit w fun _ _ => []

theorem publishesId_node (cluster : Option Ean) (n : Node) :
    (storedIds w).Publishes (publishNode e cluster n) (Text.nonEmpty n.metadata.uid).toList := by
  unfold publishNode
  split
  case h_1 hid => exact hid ▸ Account.publishes_ids_skip _ _
  case h_2 id hid =>
    refine hid ▸ Account.publishes_ids_emit e _ id ?_
    simp only [List.forall_mem_append]
    exact ⟨⟨⟨⟨Patch.setsId_maybeName _, by simp [Patch.setsId, Patch.entry]⟩,
      by simp [Patch.setsId, Patch.nodeData]⟩, Patch.setsId_optional (fun _ => rfl) _⟩,
      Patch.setsId_optional (fun _ => rfl) _⟩

theorem publishesId_pod (p : Pod) :
    (storedIds w).Publishes (publishPod e s p) (Text.nonEmpty p.metadata.uid).toList := by
  unfold publishPod
  split
  case h_1 hid => exact hid ▸ Account.publishes_ids_skip _ _
  case h_2 id hid =>
    refine hid ▸ Account.publishes_ids_emit e _ id ?_
    simp only [List.forall_mem_append]
    exact ⟨⟨Patch.setsId_maybeName _, by simp [Patch.setsId, Patch.podData]⟩,
      Patch.setsId_optional (fun _ => rfl) _⟩

theorem publishesId_container (p : Pod) (c : ContainerStatus) :
    (storedIds w).Publishes (publishContainer e p c) c.runtimeId?.toList := by
  unfold publishContainer
  split
  case h_1 hid => exact hid ▸ Account.publishes_ids_nothing
  case h_2 id hid =>
    refine hid ▸ Account.publishes_ids_emit e _ id ?_
    simp only [List.forall_mem_append]
    exact ⟨⟨Patch.setsId_maybeName _, by simp [Patch.setsId, Patch.containerData]⟩,
      by simp [Patch.setsId]⟩

theorem publishesId_containers (p : Pod) :
    (storedIds w).Publishes (publishContainers e p)
      (if p.metadata.uid = "" then [] else p.containers.flatMap fun c => c.runtimeId?.toList) := by
  unfold publishContainers
  split
  · exact Account.publishes_ids_nothing
  · exact Account.publishes_total fun c _ => publishesId_container p c

theorem learns_clusterParent (nodes : List Node) :
    Account.LearnsNothing w (fun _ _ => []) (clusterParent fetches nodes) := by
  unfold clusterParent
  split
  case h_1 => exact Account.learns_pure rfl
  case h_2 first rest =>
    split
    case isTrue =>
      refine (Account.learns_ask_nothing (c := Call.metadata) fun _ => rfl).then fun answer => ?_
      cases answer with
      | error cause => exact (Account.learns_warn _).then fun _ => Account.learns_pure rfl
      | ok metadata =>
        show Account.LearnsNothing w _ (clusterOf metadata)
        unfold clusterOf
        split
        · exact Account.learns_pure rfl
        · exact (Account.learns_warn _).then fun _ => Account.learns_pure rfl
    case isFalse => exact Account.learns_pure rfl

/-- A job begins with nothing published and ends with a record for each id in the stores. -/
theorem ensures_stored {config : KubeConfig} {stamp : Instant} {job : Job Unit Call Answer}
    (h : job ∈ pass config fetches stamp s) {t : Session Call} (ht : t.records = []) :
    Work.Ensures w (fun _ _ => False) job.work.run () t fun _ _ t' =>
      List.Forall₂ (storedIds w).Describes (stored s job.type) t'.records := by
  have hlift {m : Step Nat} {ids : List String} (hm : (storedIds w).Publishes m ids)
      {t : Session Call} (ht : t.records = []) :
      Work.Ensures w (fun _ _ => False) (monadLift m : Try Nat).run () t fun _ _ t' =>
        List.Forall₂ (storedIds w).Describes ids t'.records := by
    have hposted : (storedIds w).Posted [] () t := ⟨trivial, ht ▸ .nil⟩
    refine Work.ensures_lift (((hm [] () t hposted).weaken ?_).mono ?_)
    · exact fun _ t' ht' => Account.not_brokenOff_ids ht'.2
    · exact fun _ _ _ hdone => hdone.2.records
  obtain ⟨type, work, hwork, rfl⟩ := exists_of_mem_pass h
  unfold work? at hwork
  split at hwork
  · obtain rfl := Option.some.inj hwork
    refine Work.ensures_attempt (Work.ensures_lift ((learns_clusterParent _ () t).mono ?_))
    rintro cluster ⟨⟩ t' ⟨hrecords, -⟩
    exact hlift (Account.publishes_total fun n _ => publishesId_node cluster n)
      (hrecords.trans ht)
  · exact Option.some.inj hwork ▸ hlift (Account.publishes_total fun p _ => publishesId_pod p) ht
  · obtain rfl := Option.some.inj hwork
    exact hlift (Account.publishes_total fun p _ => publishesId_containers p) ht
  · cases hwork

end CloudInventory.Kube
