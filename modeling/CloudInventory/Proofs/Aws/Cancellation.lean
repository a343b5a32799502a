import CloudInventory.Aws.Collector
import CloudInventory.Proofs.Program.Ids
import CloudInventory.Proofs.Program.Prompt

/-!
Shutdown and the jobs for Amazon Web Services. Each of them is prompt, and publishes a record for
each id that answers tell of. The job for clusters learns of all clusters before it publishes the
first one: when shutdown overtakes it, it still publishes those that have been described by then,
though some without their children.
-/

namespace CloudInventory.Aws

/-- The ids that an answer tells of. Node groups and autoscaling groups are only looked through for
children. -/
def tell : (c : Call) → Answer c → List String
  | .describeInstances _, reservations => reservations.flatMap fun r =>
    r.instances.flatMap fun i => (i.instanceId.bind Text.nonEmpty).toList
  | .describeVpcs _, vpcs => vpcs.flatMap fun v => (v.vpcId.bind Text.nonEmpty).toList
  | .describeSubnets _, subnets => subnets.flatMap fun s => (s.subnetId.bind Text.nonEmpty).toList
  | .listClusters _, _ => []
  | .describeCluster _ _, cluster => (cluster.arn.bind Text.nonEmpty).toList
  | .listNodegroups _ _, _ => []
  | .describeNodegroup _ _ _, _ => []
  | .describeAutoScalingGroups _ _, _ => []

/-- Clusters with the same data, but perhaps other children. -/
def SameCluster (c c' : EksCluster × List Ean) : Prop := c.1 = c'.1

/-- The first few of some clusters, but perhaps with other children. -/
def Outlines (cs cs' : List (EksCluster × List Ean)) : Prop :=
  ∃ front rest, cs' = front ++ rest ∧ List.Forall₂ SameCluster cs front

theorem sameClusters (cs : List (EksCluster × List Ean)) : List.Forall₂ SameCluster cs cs :=
  List.forall₂_same.2 fun _ _ => rfl

section Items

variable {e : Emitter} {region : String}

theorem prompt_publishInstance (owner : Option String) (i : Instance) :
    Work.Prompt Eq (fun _ => False) (publishInstance e region owner i) := by
  unfold publishInstance
  split
  · exact Work.prompt_skip _ _
  · exact Work.prompt_emit _ _ _ _

theorem prompt_publishVpc (v : Vpc) :
    Work.Prompt Eq (fun _ => False) (publishVpc e region v) := by
  unfold publishVpc
  split
  · exact Work.prompt_skip _ _
  · exact Work.prompt_emit _ _ _ _

theorem prompt_publishSubnet (s : Subnet) :
    Work.Prompt Eq (fun _ => False) (publishSubnet e region s) := by
  unfold publishSubnet
  split
  · exact Work.prompt_skip _ _
  · exact Work.prompt_emit _ _ _ _

/-- The children of a cluster are left out of account. -/
theorem lags_publishCluster {c c' : EksCluster × List Ean} (h : SameCluster c c') :
    Work.Lags Eq (fun _ => False) (publishCluster e region c) (publishCluster e region c') := by
  obtain ⟨cluster, children⟩ := c
  obtain ⟨cluster', children'⟩ := c'
  obtain rfl : cluster = cluster' := h
  unfold publishCluster
  dsimp only
  split
  · exact (Work.prompt_skip _ _).lags
  · refine Work.lags_emit _ _ _ ?_
    simp [Patch.setsEdges]

theorem prompt_publishCluster (c : EksCluster × List Ean) :
    Work.Prompt Eq (fun _ => False) (publishCluster e region c) := by
  unfold publishCluster
  split
  · exact Work.prompt_skip _ _
  · exact Work.prompt_emit _ _ _ _

end Items

/-! ### Descriptions of clusters -/

section Descriptions

variable {region : String}

theorem silent_groupNames (cluster : String) : ∀ nodegroups : List String,
    Work.Silent Observer.deaf (groupNames region cluster nodegroups).run
  | [] => Work.silent_pure _
  | _ :: nodegroups => (Work.silent_ask rfl).attempt fun _ =>
      (silent_groupNames cluster nodegroups).attempt fun _ => Work.silent_pure _

theorem silent_clusterChildren (cluster : String) :
    Work.Silent Observer.deaf (clusterChildren region cluster).run := by
  refine (Work.silent_ask rfl).attempt fun nodegroups =>
    (silent_groupNames cluster nodegroups).attempt fun names => ?_
  split
  · exact Work.silent_pure _
  · exact (Work.silent_ask rfl).attempt fun _ => Work.silent_pure _

/-- What follows on the answer to the description of a cluster. -/
def pursue (region name : String) :
    Except CollectorError EksCluster → Step (Option (EksCluster × List Ean))
  | .error cause => do
    Work.warn (.skippedCluster cause)
    return none
  | .ok cluster => do
    match ← (clusterChildren region name).run with
    | .error cause =>
      Work.warn (.childlessEks cause)
      return some (cluster, [])
    | .ok children => return some (cluster, children)

theorem describeCluster_eq (name : String) : describeCluster region name =
    (Work.ask (Call.describeCluster region name) : Try EksCluster).run >>= pursue region name := by
  refine congrArg (_ >>= ·) (funext fun described => ?_)
  cases described <;> rfl

theorem silent_pursue (name : String) (described : Except CollectorError EksCluster) :
    Work.Silent Observer.deaf (pursue region name described) := by
  cases described with
  | error cause => exact (Work.silent_warn _).bind fun _ => Work.silent_pure _
  | ok cluster =>
    refine (silent_clusterChildren name).bind fun children => ?_
    cases children with
    | error cause => exact (Work.silent_warn _).bind fun _ => Work.silent_pure _
    | ok eans => exact Work.silent_pure _

theorem idle_pursue (name : String) :
    Work.Idle (fun found => found = none) (pursue region name (.error .cancelled)) :=
  (Work.idle_warn _).bind fun _ _ => Work.idle_pure rfl

theorem silent_describeClusters : ∀ names : List String,
    Work.Silent Observer.deaf (describeClusters region names)
  | [] => Work.silent_pure _
  | name :: names => by
    have hname : Work.Silent Observer.deaf (describeCluster region name) :=
      describeCluster_eq name ▸ (Work.silent_ask rfl).bind fun _ => silent_pursue name _
    exact hname.bind fun _ => (silent_describeClusters names).bind fun _ => Work.silent_pure _

/-- Once shutdown has been signalled no cluster is described. -/
theorem idle_describeClusters : ∀ names : List String,
    Work.Idle (fun found => found = []) (describeClusters region names)
  | [] => Work.idle_pure rfl
  | name :: names => by
    have hname : Work.Idle (fun found => found = none) (describeCluster region name) := by
      refine describeCluster_eq name ▸ Work.refuses_ask.bind fun described hdescribed => ?_
      subst hdescribed
      exact idle_pursue name
    refine hname.bind fun found hfound => ?_
    refine (idle_describeClusters names).bind fun rest hrest => Work.idle_pure ?_
    rw [hfound, hrest]
    rfl

/-- The outcome of a description in the face of shutdown: none, or the cluster all the same. -/
def Curtailed (found found' : Option (EksCluster × List Ean)) : Prop :=
  found = none ∨ List.Forall₂ SameCluster found.toList found'.toList

theorem prompt_pursue (name : String) (described : Except CollectorError EksCluster) :
    Work.Prompt Curtailed (fun _ => False) (pursue region name described) := by
  cases described with
  | error cause =>
    exact (Work.prompt_warn _).seq (fun _ => Work.prompt_pure (.inl rfl)) fun _ => False.elim
  | ok cluster =>
    have hsame (eans eans' : List Ean) :
        Curtailed (some (cluster, eans)) (some (cluster, eans')) := .inr (.cons rfl .nil)
    refine (silent_clusterChildren name).promptThen (fun children => ?_)
      fun children children' => ?_
    · cases children with
      | error cause =>
        exact (Work.prompt_warn _).seq (fun _ => Work.prompt_pure (hsame _ _)) fun _ => False.elim
      | ok eans => exact Work.prompt_pure (hsame _ _)
    · cases children with
      | error cause =>
        cases children' with
        | error cause' => exact ((Work.lags_pure (hsame _ _)).warnRight _).warnLeft _
        | ok eans' => exact (Work.lags_pure (hsame _ _)).warnLeft _
      | ok eans =>
        cases children' with
        | error cause' => exact (Work.lags_pure (hsame _ _)).warnRight _
        | ok eans' => exact Work.lags_pure (hsame _ _)

theorem prompt_describeCluster (name : String) :
    Work.Prompt Curtailed (fun _ => False) (describeCluster region name) := by
  refine describeCluster_eq name ▸ Work.prompt_ask.bind (fun r => prompt_pursue name r) ?_
    fun _ => False.elim
  rintro r r' (rfl | rfl)
  · exact ((idle_pursue name).lags_silent (silent_pursue name r')).mono (fun _ _ => .inl)
      fun _ => id
  · exact (prompt_pursue name r).lags

/-- A cluster that is being described when shutdown is signalled may lack its children, and those
after it are not described at all. -/
theorem prompt_describeClusters : ∀ names : List String,
    Work.Prompt Outlines (fun _ => False) (describeClusters region names)
  | [] => Work.prompt_pure ⟨[], [], rfl, .nil⟩
  | name :: names => by
    refine (prompt_describeCluster name).bind (fun found => ?_) (fun found found' h => ?_)
      fun _ => False.elim
    · refine (prompt_describeClusters names).bind (fun rest => ?_) ?_ fun _ => False.elim
      · exact Work.prompt_pure ⟨_, [], (List.append_nil _).symm, sameClusters _⟩
      · rintro cs cs' ⟨front, rest, rfl, hfront⟩
        refine Work.lags_pure ⟨found.toList ++ front, rest, (List.append_assoc ..).symm, ?_⟩
        exact List.rel_append (sameClusters _) hfront
    · have hnone : Work.Lags (fun cs _ => cs = []) (fun _ => False)
          (describeClusters region names) (describeClusters region names) :=
        (idle_describeClusters names).lags_silent (silent_describeClusters names)
      refine hnone.bind (fun cs cs' hcs => Work.lags_pure ?_) fun _ => False.elim
      subst hcs
      rw [List.append_nil]
      rcases h with rfl | h
      · exact ⟨[], _, rfl, .nil⟩
      · exact ⟨found'.toList, cs', rfl, h⟩

end Descriptions

/-! ### Ids -/

section Ids

variable {w : World Call Answer} {e : Emitter} {region : String}

theorem setsId_accountPatch (account : Option String) :
    ∀ p ∈ accountPatch account, p.setsId = false :=
  Patch.setsId_optional (fun _ => rfl) account

theorem setsId_textPatch (key : String) (value : Option String) :
    ∀ p ∈ textPatch key value, p.setsId = false :=
  Patch.setsId_optional (fun _ => rfl) value

theorem publishesId_instance (owner : Option String) (i : Instance) :
    (Account.ids Unit w tell).Publishes (publishInstance e region owner i)
      (i.instanceId.bind Text.nonEmpty).toList := by
  unfold publishInstance
  split
  case h_1 hid => exact hid ▸ Account.publishes_ids_skip _ _
  case h_2 id hid =>
    refine hid ▸ Account.publishes_ids_emit e _ id ?_
    simp only [List.forall_mem_append]
    exact ⟨⟨by simp [Patch.setsId], setsId_accountPatch _⟩, setsId_textPatch _ _⟩

theorem publishesId_vpc (v : Vpc) :
    (Account.ids Unit w tell).Publishes (publishVpc e region v)
      (v.vpcId.bind Text.nonEmpty).toList := by
  unfold publishVpc
  split
  case h_1 hid => exact hid ▸ Account.publishes_ids_skip _ _
  case h_2 id hid =>
    refine hid ▸ Account.publishes_ids_emit e _ id ?_
    simp only [List.forall_mem_append]
    exact ⟨by simp [Patch.setsId, Patch.entry], setsId_accountPatch _⟩

theorem publishesId_subnet (s : Subnet) :
    (Account.ids Unit w tell).Publishes (publishSubnet e region s)
      (s.subnetId.bind Text.nonEmpty).toList := by
  unfold publishSubnet
  split
  case h_1 hid => exact hid ▸ Account.publishes_ids_skip _ _
  case h_2 id hid =>
    refine hid ▸ Account.publishes_ids_emit e _ id ?_
    simp only [List.forall_mem_append]
    exact ⟨⟨by simp [Patch.setsId], setsId_accountPatch _⟩, setsId_textPatch _ _⟩

/-- The id of a cluster, if it has one. -/
def clusterId (c : EksCluster × List Ean) : List String := (c.1.arn.bind Text.nonEmpty).toList

theorem publishesId_cluster (c : EksCluster × List Ean) :
    (Account.ids Unit w tell).Publishes (publishCluster e region c) (clusterId c) := by
  unfold publishCluster clusterId
  split
  case h_1 hid => exact hid ▸ Account.publishes_ids_skip _ _
  case h_2 id hid =>
    refine hid ▸ Account.publishes_ids_emit e _ id ?_
    simp only [List.forall_mem_append]
    exact ⟨⟨⟨⟨by simp [Patch.setsId], Patch.setsId_maybeName _⟩, by simp [Patch.setsId]⟩,
      setsId_accountPatch _⟩, setsId_textPatch _ _⟩

theorem learns_groupNames (cluster : String) : ∀ nodegroups : List String,
    Account.LearnsNothing w tell (groupNames region cluster nodegroups).run
  | [] => Account.learns_pure rfl
  | _ :: nodegroups => (Account.learns_ask_nothing fun _ => rfl).attempt fun _ =>
      (learns_groupNames cluster nodegroups).attempt fun _ => Account.learns_pure rfl

theorem learns_clusterChildren (cluster : String) :
    Account.LearnsNothing w tell (clusterChildren region cluster).run := by
  refine (Account.learns_ask_nothing fun _ => rfl).attempt fun nodegroups =>
    (learns_groupNames cluster nodegroups).attempt fun names => ?_
  split
  · exact Account.learns_pure rfl
  · exact (Account.learns_ask_nothing fun _ => rfl).attempt fun _ => Account.learns_pure rfl

/-- The cluster that is found is the one that has been told of. -/
theorem learns_describeCluster (name : String) :
    Account.Learns w tell (describeCluster region name) fun found new =>
      new = found.toList.flatMap clusterId := by
  refine describeCluster_eq name ▸ (Account.learns_ask _ _).bind fun described front hfront => ?_
  subst hfront
  cases described with
  | error cause => exact (Account.learns_warn _).then fun _ => Account.learns_pure rfl
  | ok cluster =>
    have htold (eans : List Ean) :
        Session.tellings tell (.describeCluster region name) (.ok cluster) ++ [] =
          [(cluster, eans)].flatMap clusterId := by
      rw [List.append_nil, List.flatMap_singleton]
      rfl
    refine (learns_clusterChildren name).then fun children => ?_
    cases children with
    | error cause => exact (Account.learns_warn _).then fun _ => Account.learns_pure (htold _)
    | ok eans => exact Account.learns_pure (htold _)

theorem learns_describeClusters : ∀ names : List String,
    Account.Learns w tell (describeClusters region names) fun cs new =>
      new = cs.flatMap clusterId
  | [] => Account.learns_pure rfl
  | name :: names => by
    refine (learns_describeCluster name).bind fun found front hfront => ?_
    refine (learns_describeClusters names).bind fun cs rest hrest => Account.learns_pure ?_
    rw [hfront, hrest, List.append_nil, List.flatMap_append]

theorem collectsId_clusters : (Account.ids Unit w tell).Collects (collectClusters e region) :=
  Account.collects_after (Account.learns_ask_nothing fun _ => rfl) fun names =>
    Account.collects_learnt (learns_describeClusters names) fun _ =>
      Account.publishes_total fun c _ => publishesId_cluster c

end Ids

/-! ### Jobs -/

section Jobs

variable {e : Emitter} {region : String}

theorem prompt_collectClusters :
    Work.PromptAnyhow (collectClusters e region).run := by
  refine Work.stops_ask.then (fun names => ?_) (fun _ => trivial) trivial
  rw [Work.run_lift_bind]
  refine (prompt_describeClusters names).bind (fun cs => ?_) ?_ fun _ => False.elim
  · exact (Work.prompt_total prompt_publishCluster cs).stops.anyhow
  · rintro cs cs' ⟨front, rest, rfl, hfront⟩
    exact Work.lags_lift_total (hfront.imp fun _ _ => lags_publishCluster)

/-- Every job of a pass is prompt. -/
theorem prompt_of_mem_pass {config : AwsConfig} {stamp : Instant} {job : Job Unit Call Answer}
    (h : job ∈ pass config stamp) :
    Work.PromptAnyhow job.work.run := by
  obtain ⟨region, type, work, hwork, rfl⟩ := exists_of_mem_pass h
  unfold work? at hwork
  split at hwork
  · obtain rfl := Option.some.inj hwork
    exact Work.Prompt.anyhow (Work.stops_askTotal fun r =>
      Work.prompt_total (prompt_publishInstance r.ownerId) r.instances)
  · exact Option.some.inj hwork ▸ Work.Prompt.anyhow (Work.stops_askTotal prompt_publishVpc)
  · exact Option.some.inj hwork ▸ Work.Prompt.anyhow (Work.stops_askTotal prompt_publishSubnet)
  · exact Option.some.inj hwork ▸ prompt_collectClusters
  · cases hwork

/-- Every job of a pass publishes a record for each id that it is told of. -/
theorem collectsId_of_mem_pass {w : World Call Answer} {config : AwsConfig} {stamp : Instant}
    {job : Job Unit Call Answer} (h : job ∈ pass config stamp) :
    (Account.ids Unit w tell).Collects job.work := by
  obtain ⟨region, type, work, hwork, rfl⟩ := exists_of_mem_pass h
  unfold work? at hwork
  split at hwork
  · obtain rfl := Option.some.inj hwork
    exact Account.collects_askTotal fun reservations => Account.publishes_total fun r _ =>
      Account.publishes_total fun i _ => publishesId_instance r.ownerId i
  · obtain rfl := Option.some.inj hwork
    exact Account.collects_askTotal fun vpcs => Account.publishes_total fun v _ => publishesId_vpc v
  · obtain rfl := Option.some.inj hwork
    exact Account.collects_askTotal fun subnets => Account.publishes_total fun s _ =>
      publishesId_subnet s
  · obtain rfl := Option.some.inj hwork
    exact collectsId_clusters
  · cases hwork

end Jobs

end CloudInventory.Aws
