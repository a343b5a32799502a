import CloudInventory.Aws.Collector
import CloudInventory.Proofs.Program.Emits
import CloudInventory.Proofs.Record.Names

/-!
What the jobs for Amazon Web Services publish. Each job tells how many records it has published, and
all names in them have ids, but for the children of a cluster: these are what the service has
answered for the autoscaling groups, member by member, and a member may have an empty id.
-/

namespace CloudInventory.Aws

variable {w : World Call Answer} {e : Emitter} {region : String}

/-- The service has answered that these are the members of some autoscaling groups. -/
def FromGroups (w : World Call Answer) (eans : List Ean) : Prop :=
  ∃ k region names groups, w.answer k (.describeAutoScalingGroups region names) = .ok groups ∧
    eans = members groups

/-- The children of a record: none, or the members of some groups. -/
def Offspring (w : World Call Answer) (eans : List Ean) : Prop := eans = [] ∨ FromGroups w eans

/-- Work that counts its records, in which only children may be without an id. -/
abbrev Publishes (w : World Call Answer) (m : Step Nat) : Prop :=
  Work.Emits w (fun _ => True) (Record.Named (Offspring w)) m Work.Counts

/-- An attempt that tells its records, in which only children may be without an id. -/
abbrev Collects (w : World Call Answer) (m : Try Nat) : Prop :=
  Work.Emits w (fun _ => True) (Record.Named (Offspring w)) m.run Work.Tells

theorem publishes_emit {type : AssetType} {id : String} {ps : List Patch} (hid : id ≠ "")
    (hps : ∀ p ∈ ps, p.Names (Offspring w)) :
    Publishes w (do e.emit type id ps; return 1) :=
  Work.emits_emit (Record.named_compose _ _ _ hid (.inl rfl) hps)

/-! ### Phrases -/

theorem haveIds_networks (id : Option String) : Ean.HaveIds (networks id) := by
  intro ean hean
  obtain ⟨s, hs, rfl⟩ := List.mem_map.1 hean
  exact Text.ne_empty_of_bind_nonEmpty (Option.mem_toList.1 hs)

theorem names_accountPatch {C : List Ean → Prop} (account : Option String) :
    ∀ p ∈ accountPatch account, p.Names C :=
  Patch.names_optional fun _ _ => trivial

theorem names_textPatch {C : List Ean → Prop} (key : String) (value : Option String) :
    ∀ p ∈ textPatch key value, p.Names C :=
  Patch.names_optional fun _ _ => trivial

/-! ### Machines, networks and subnets -/

theorem publishes_instance (owner : Option String) (i : Instance) :
    Publishes w (publishInstance e region owner i) := by
  unfold publishInstance
  split
  case h_1 => exact Work.emits_skip _ _
  case h_2 id hid =>
    refine publishes_emit (Text.ne_empty_of_bind_nonEmpty hid) ?_
    simp only [List.forall_mem_append]
    refine ⟨⟨?_, names_accountPatch _⟩, names_textPatch _ _⟩
    simpa [Patch.Names] using haveIds_networks _

theorem publishes_vpc (v : Vpc) : Publishes w (publishVpc e region v) := by
  unfold publishVpc
  split
  case h_1 => exact Work.emits_skip _ _
  case h_2 id hid =>
    refine publishes_emit (Text.ne_empty_of_bind_nonEmpty hid) ?_
    simp only [List.forall_mem_append]
    refine ⟨?_, names_accountPatch _⟩
    simp [Patch.Names, Patch.entry]

theorem publishes_subnet (s : Subnet) : Publishes w (publishSubnet e region s) := by
  unfold publishSubnet
  split
  case h_1 => exact Work.emits_skip _ _
  case h_2 id hid =>
    refine publishes_emit (Text.ne_empty_of_bind_nonEmpty hid) ?_
    simp only [List.forall_mem_append]
    refine ⟨⟨?_, names_accountPatch _⟩, names_textPatch _ _⟩
    simpa [Patch.Names] using haveIds_networks _

theorem collects_instances : Collects w (collectInstances e region) :=
  Work.emits_askThen fun _ _ _ => Work.emits_total fun r _ =>
    Work.emits_total fun i _ => publishes_instance r.ownerId i

theorem collects_vpcs : Collects w (collectVpcs e region) :=
  Work.emits_askThen fun _ _ _ => Work.emits_total fun v _ => publishes_vpc v

theorem collects_subnets : Collects w (collectSubnets e region) :=
  Work.emits_askThen fun _ _ _ => Work.emits_total fun s _ => publishes_subnet s

/-! ### Clusters -/

/-- Work that publishes nothing and whose result has a property. -/
abbrev Finds {α : Type} (w : World Call Answer) (m : Step α) (U : α → Prop) : Prop :=
  Work.Emits w (fun _ => True) (Record.Named (Offspring w)) m fun a new => new = [] ∧ U a

theorem finds_ask (c : Call) {U : Answer c → Prop} (h : ∀ k a, w.answer k c = .ok a → U a) :
    Finds w (Work.ask c : Try (Answer c)).run fun r => ∀ a, r = .ok a → U a := by
  refine Work.emits_ask (fun e => ⟨rfl, fun a ha => nomatch ha⟩) fun k a hk => ⟨rfl, ?_⟩
  rintro a' ha
  exact Except.ok.inj ha ▸ h k a hk

theorem finds_groupNames (cluster : String) : ∀ nodegroups : List String,
    Finds w (groupNames region cluster nodegroups).run fun r => ∀ a, r = .ok a → True
  | [] => Work.emits_return ⟨rfl, fun _ _ => trivial⟩
  | nodegroup :: nodegroups => by
    refine Work.Emits.attempt (finds_ask _ (U := fun _ => True) fun _ _ _ => trivial)
      (fun e => ⟨rfl, fun _ _ => trivial⟩) fun described _ => ?_
    exact Work.Emits.attempt (finds_groupNames cluster nodegroups)
      (fun e => ⟨rfl, fun _ _ => trivial⟩) fun names _ =>
        Work.emits_return ⟨rfl, fun _ _ => trivial⟩

/-- The children that are found are the members of groups. -/
theorem finds_clusterChildren (cluster : String) :
    Finds w (clusterChildren region cluster).run fun r => ∀ eans, r = .ok eans →
      Offspring w eans := by
  have hfail : ∀ e : CollectorError, ([] : List Record) = [] ∧
      ∀ eans, Except.error e = .ok eans → Offspring w eans :=
    fun e => ⟨rfl, fun eans h => nomatch h⟩
  refine Work.Emits.attempt (finds_ask _ (U := fun _ => True) fun _ _ _ => trivial) hfail
    fun nodegroups _ => ?_
  refine Work.Emits.attempt (finds_groupNames cluster nodegroups) hfail fun names _ => ?_
  split
  case isTrue =>
    refine Work.emits_return ⟨rfl, fun eans h => .inl ?_⟩
    exact (Except.ok.inj h).symm
  case isFalse =>
    refine Work.Emits.attempt (finds_ask _ (U := fun groups => Offspring w (members groups)) ?_)
      hfail fun groups hgroups => ?_
    · exact fun k groups hk => .inr ⟨k, region, names, groups, hk, rfl⟩
    · exact Work.emits_return ⟨rfl, fun eans h => Except.ok.inj h ▸ hgroups⟩

theorem finds_describeCluster (name : String) :
    Finds w (describeCluster region name) fun found => ∀ c ∈ found, Offspring w c.2 := by
  unfold describeCluster
  refine (finds_ask (.describeCluster region name) (U := fun _ => True) fun _ _ _ =>
    trivial).bind_silent fun described _ => ?_
  cases described with
  | error cause =>
    refine Work.emits_warnThen ?_
    exact Work.emits_pure ⟨rfl, fun c hc => nomatch hc⟩
  | ok cluster =>
    refine (finds_clusterChildren name).bind_silent fun children hchildren => ?_
    cases children with
    | error cause =>
      refine Work.emits_warnThen ?_
      refine Work.emits_pure ⟨rfl, fun c hc => ?_⟩
      obtain rfl := Option.mem_some_iff.1 hc
      exact .inl rfl
    | ok eans =>
      refine Work.emits_pure ⟨rfl, fun c hc => ?_⟩
      obtain rfl := Option.mem_some_iff.1 hc
      exact hchildren eans rfl

theorem finds_describeClusters : ∀ names : List String,
    Finds w (describeClusters region names) fun found => ∀ c ∈ found, Offspring w c.2
  | [] => Work.emits_pure ⟨rfl, fun c hc => absurd hc List.not_mem_nil⟩
  | name :: names => by
    refine (finds_describeCluster name).bind_silent fun described hdescribed => ?_
    refine (finds_describeClusters names).bind_silent fun rest hrest => ?_
    refine Work.emits_pure ⟨rfl, fun c hc => ?_⟩
    rcases List.mem_append.1 hc with hc | hc
    · exact hdescribed c (Option.mem_toList.1 hc)
    · exact hrest c hc

theorem publishes_cluster {c : EksCluster × List Ean} (hc : Offspring w c.2) :
    Publishes w (publishCluster e region c) := by
  unfold publishCluster
  split
  case h_1 => exact Work.emits_skip _ _
  case h_2 arn harn =>
    refine publishes_emit (Text.ne_empty_of_bind_nonEmpty harn) ?_
    simp only [List.forall_mem_append]
    refine ⟨⟨⟨⟨?_, Patch.names_maybeName _⟩, ?_⟩, names_accountPatch _⟩, names_textPatch _ _⟩
    · simp [Patch.Names]
    · simpa [Patch.Names] using ⟨haveIds_networks _, hc⟩

theorem collects_clusters : Collects w (collectClusters e region) := by
  refine Work.Emits.attempt (finds_ask _ (U := fun _ => True) fun _ _ _ => trivial) (fun _ => rfl)
    fun names _ => ?_
  refine Work.Emits.attempt (U := fun described => ∀ c ∈ described, Offspring w c.2)
    (Work.Emits.lift ?_) (fun _ => rfl) fun described hdescribed => ?_
  · refine (finds_describeClusters names).mono fun described new hnew => ⟨hnew.1, ?_⟩
    exact fun _ h => Except.ok.inj h ▸ hnew.2
  · exact (Work.emits_total fun c hc => publishes_cluster (hdescribed c hc)).lift

/-! ### Passes -/

/-- Every job of a pass tells its records, in which only children may be without an id. -/
theorem collects_of_mem_pass {config : AwsConfig} {stamp : Instant} {job : Job Unit Call Answer}
    (h : job ∈ pass config stamp) : Collects w job.work := by
  obtain ⟨region, type, work, hwork, rfl⟩ := exists_of_mem_pass h
  unfold work? at hwork
  split at hwork
  · exact Option.some.inj hwork ▸ collects_instances
  · exact Option.some.inj hwork ▸ collects_vpcs
  · exact Option.some.inj hwork ▸ collects_subnets
  · exact Option.some.inj hwork ▸ collects_clusters
  · cases hwork

end CloudInventory.Aws
