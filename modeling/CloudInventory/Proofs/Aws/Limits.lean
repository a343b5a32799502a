import CloudInventory.Aws.Collector
import CloudInventory.Proofs.Program.Limits
import CloudInventory.Proofs.Record.Documents

/-!
Limits of the jobs for Amazon. A job calls the service for the region that is its scope, and
publishes plain records. Nothing breaks it off. Only for clusters are there calls after the listing:
those by which each of them is described.
-/

namespace CloudInventory.Aws

/-- A call is for a region. -/
def Call.For (region : String) (c : Call) : Prop := c.region = region

/-- A call that may be made for a cluster when it is described. -/
def Call.Describes (region cluster : String) : Call → Prop
  | .describeCluster r n => r = region ∧ n = cluster
  | .listNodegroups r n => r = region ∧ n = cluster
  | .describeNodegroup r n _ => r = region ∧ n = cluster
  | .describeAutoScalingGroups r _ => r = region
  | .describeInstances _ | .describeVpcs _ | .describeSubnets _ | .listClusters _ => False

variable {e : Emitter} {region : String} {Q : Call → Prop} {P : Record → Prop}

theorem Call.Describes.for {cluster : String} {c : Call} (h : c.Describes region cluster) :
    c.For region := by
  cases c with
  | describeCluster => exact h.1
  | listNodegroups => exact h.1
  | describeNodegroup => exact h.1
  | describeAutoScalingGroups => exact h
  | describeInstances | describeVpcs | describeSubnets | listClusters => exact h.elim

theorem isPlain_accountPatch (account : Option String) :
    ∀ p ∈ accountPatch account, p.isPlain = true := by
  simp [accountPatch, Patch.isPlain]

theorem isPlain_textPatch (key : String) (value : Option String) :
    ∀ p ∈ textPatch key value, p.isPlain = true := by
  simp [textPatch, Patch.isPlain, Patch.entry]

/-! ### Publishing -/

theorem keepsTo_publishInstance (owner : Option String) (i : Instance) :
    Work.KeepsTo False Q (Record.Plain e.space) (publishInstance e region owner i) := by
  unfold publishInstance
  split
  · exact Work.keepsTo_skip _ _
  · refine Work.keepsTo_emit (Record.plain_compose ?_)
    simp only [List.forall_mem_append]
    exact ⟨⟨by simp [Patch.isPlain], isPlain_accountPatch _⟩, isPlain_textPatch _ _⟩

theorem keepsTo_publishVpc (v : Vpc) :
    Work.KeepsTo False Q (Record.Plain e.space) (publishVpc e region v) := by
  unfold publishVpc
  split
  · exact Work.keepsTo_skip _ _
  · refine Work.keepsTo_emit (Record.plain_compose ?_)
    simp only [List.forall_mem_append]
    exact ⟨by simp [Patch.isPlain, Patch.entry], isPlain_accountPatch _⟩

theorem keepsTo_publishSubnet (s : Subnet) :
    Work.KeepsTo False Q (Record.Plain e.space) (publishSubnet e region s) := by
  unfold publishSubnet
  split
  · exact Work.keepsTo_skip _ _
  · refine Work.keepsTo_emit (Record.plain_compose ?_)
    simp only [List.forall_mem_append]
    exact ⟨⟨by simp [Patch.isPlain], isPlain_accountPatch _⟩, isPlain_textPatch _ _⟩

theorem keepsTo_publishCluster (c : EksCluster × List Ean) :
    Work.KeepsTo False Q (Record.Plain e.space) (publishCluster e region c) := by
  unfold publishCluster
  split
  · exact Work.keepsTo_skip _ _
  · refine Work.keepsTo_emit (Record.plain_compose ?_)
    simp only [List.forall_mem_append]
    refine ⟨⟨⟨⟨?_, Patch.isPlain_maybeName _⟩, ?_⟩, isPlain_accountPatch _⟩, isPlain_textPatch _ _⟩
    all_goals simp [Patch.isPlain]

/-! ### Describing clusters -/

theorem keepsTo_groupNames (cluster : String) :
    ∀ nodegroups : List String,
      Work.KeepsTo False (Call.Describes region cluster) P
        (groupNames region cluster nodegroups).run
  | [] => Work.keepsTo_return []
  | nodegroup :: nodegroups => by
    have hnodegroup : (Call.describeNodegroup region cluster nodegroup).Describes region cluster :=
      ⟨rfl, rfl⟩
    refine (Work.keepsTo_ask hnodegroup).attempt fun described => ?_
    exact (keepsTo_groupNames cluster nodegroups).attempt fun names => Work.keepsTo_return _

theorem keepsTo_clusterChildren (cluster : String) :
    Work.KeepsTo False (Call.Describes region cluster) P (clusterChildren region cluster).run := by
  have hnodegroups : (Call.listNodegroups region cluster).Describes region cluster := ⟨rfl, rfl⟩
  refine (Work.keepsTo_ask hnodegroups).attempt fun nodegroups => ?_
  refine (keepsTo_groupNames cluster nodegroups).attempt fun names => ?_
  split
  · exact Work.keepsTo_return []
  · have hgroups : (Call.describeAutoScalingGroups region names).Describes region cluster := rfl
    exact (Work.keepsTo_ask hgroups).attempt fun groups => Work.keepsTo_return _

theorem keepsTo_describeCluster (name : String) :
    Work.KeepsTo False (Call.Describes region name) P (describeCluster region name) := by
  have hcluster : (Call.describeCluster region name).Describes region name := ⟨rfl, rfl⟩
  refine (Work.keepsTo_ask hcluster).bind fun answer => ?_
  cases answer with
  | error cause => exact (Work.keepsTo_warn _).bind fun _ => Work.keepsTo_pure _
  | ok cluster =>
    refine (keepsTo_clusterChildren name).bind fun children => ?_
    cases children with
    | error cause => exact (Work.keepsTo_warn _).bind fun _ => Work.keepsTo_pure _
    | ok children => exact Work.keepsTo_pure _

theorem keepsTo_describeClusters : ∀ names : List String,
    Work.KeepsTo False (fun c => ∃ name ∈ names, c.Describes region name) P
      (describeClusters region names)
  | [] => Work.keepsTo_pure []
  | name :: names => by
    refine ((keepsTo_describeCluster name).mono id fun c hc => ?_).bind fun _ => ?_
    · exact ⟨name, List.mem_cons_self, hc⟩
    refine ((keepsTo_describeClusters names).mono id fun c hc => ?_).bind fun _ =>
      Work.keepsTo_pure _
    obtain ⟨n, hn, hc⟩ := hc
    exact ⟨n, List.mem_cons_of_mem name hn, hc⟩

/-! ### Jobs -/

theorem keepsTo_collectInstances :
    Work.KeepsTo False (Call.For region) (Record.Plain e.space) (collectInstances e region).run :=
  Work.keepsTo_askTotal rfl fun r =>
    Work.keepsTo_total fun i _ => keepsTo_publishInstance r.ownerId i

/-- Clusters are listed, and then described. -/
theorem keepsTo_collectClusters :
    Work.KeepsTo False (fun c => c = .listClusters region ∨ ∃ name, c.Describes region name)
      (Record.Plain e.space) (collectClusters e region).run := by
  refine (Work.keepsTo_ask (.inl rfl)).attempt fun names => ?_
  refine ((keepsTo_describeClusters names).mono id fun c hc => ?_).lift.attempt
    fun described => ?_
  · obtain ⟨name, -, hc⟩ := hc
    exact .inr ⟨name, hc⟩
  exact (Work.keepsTo_total fun c _ => keepsTo_publishCluster c).lift

/-- A job calls for the region that is its scope, and publishes plain records. -/
theorem keepsTo_of_mem_pass {config : AwsConfig} {stamp : Instant} {job : Job Unit Call Answer}
    (h : job ∈ pass config stamp) :
    Work.KeepsTo False (Call.For job.scope) (Record.Plain config.base.space) job.work.run := by
  obtain ⟨region, type, work, hwork, rfl⟩ := exists_of_mem_pass h
  show Work.KeepsTo _ _ (Record.Plain (Emitter.mk stamp config.base.space).space) work.run
  unfold work? at hwork
  split at hwork
  · exact Option.some.inj hwork ▸ keepsTo_collectInstances
  · exact Option.some.inj hwork ▸ Work.keepsTo_askTotal rfl keepsTo_publishVpc
  · exact Option.some.inj hwork ▸ Work.keepsTo_askTotal rfl keepsTo_publishSubnet
  · obtain rfl := Option.some.inj hwork
    refine keepsTo_collectClusters.mono id ?_
    rintro c (rfl | ⟨name, hc⟩)
    · rfl
    · exact hc.for
  · cases hwork

end CloudInventory.Aws
