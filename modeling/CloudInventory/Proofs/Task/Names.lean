import CloudInventory.Proofs.Aws.Records
import CloudInventory.Proofs.Azure.Records
import CloudInventory.Proofs.Gcp.Records
import CloudInventory.Proofs.Kube.Records

/-!
Whether the names in records read back. Items and links without an id are passed over wherever
names are made, so that every record's own name and all its parents read back, whatever a provider
answers and whatever objects are stored. The one place that does not ask for an id is that for the
members of autoscaling groups, which become the children of a cluster. So the main statement is
this: all names of a record read back unless a member without an id is among its children.
-/

namespace CloudInventory

namespace Task

/-- The caches that a task finds, if it uses any, have been filled by jobs of passes. -/
def Filled : Task → Prop
  | gcp config ttl _ _ caches => ∃ capacity us, (∀ v ∈ us, Gcp.Turn.OfPass config ttl v) ∧
      caches = Gcp.cachesAfter capacity us
  | _ => True

/-- The children of a record are the members of autoscaling groups, and one of these has an empty
id. -/
def HasBlankMember (task : Task) (r : Record) : Prop :=
  match task with
  | aws _ _ _ _ world _ => ∃ k region names groups,
      world.answer k (.describeAutoScalingGroups region names) = .ok groups ∧
        r.children = Aws.members groups ∧ ∃ g ∈ groups, ∃ m ∈ g.instances, m.instanceId = some ""
  | _ => False

end Task

namespace Aws

/-- A member without an id is one whose id is empty. -/
theorem haveIds_members_iff {groups : List AutoScalingGroup} :
    Ean.HaveIds (members groups) ↔
      ¬ ∃ g ∈ groups, ∃ m ∈ g.instances, m.instanceId = some "" := by
  constructor
  · rintro h ⟨g, hg, m, hm, hid⟩
    refine h ⟨.host, ""⟩ (List.mem_map_of_mem ?_) rfl
    exact List.mem_filterMap.2 ⟨m, List.mem_flatMap.2 ⟨g, hg, hm⟩, hid⟩
  · intro h ean hean hblank
    obtain ⟨id, hid, rfl⟩ := List.mem_map.1 hean
    obtain ⟨m, hm, hid⟩ := List.mem_filterMap.1 hid
    obtain ⟨g, hg, hm⟩ := List.mem_flatMap.1 hm
    obtain rfl : id = "" := hblank
    exact h ⟨g, hg, m, hm, hid⟩

end Aws

namespace Task

/-- A record whose names have ids, but perhaps for the children. -/
theorem named_of_mem_records {task : Task} (hfilled : task.Filled) {r : Record}
    (hr : r ∈ task.report.records) :
    r.Named fun eans => Ean.HaveIds eans ↔ ¬ task.HasBlankMember r := by
  -- elsewhere than with Amazon there are no members, and all names have ids
  have hsound : r.Named Ean.HaveIds → ¬ task.HasBlankMember r →
      r.Named fun eans => Ean.HaveIds eans ↔ ¬ task.HasBlankMember r := fun h hnone =>
    ⟨h.own, h.parents, iff_of_true h.children hnone⟩
  cases task with
  | aws config stamp job ofPass world cancelled =>
    have hnamed := ((Aws.collects_of_mem_pass ofPass).report_meets (w := world) (s := ()) trivial
      Aws.Call.words cancelled).records r hr
    refine ⟨hnamed.own, hnamed.parents, ?_⟩
    rcases hnamed.children with hnone | ⟨k, region, names, groups, hk, hgroups⟩
    · rw [hnone]
      refine iff_of_true Ean.haveIds_nil ?_
      rintro ⟨_, _, _, groups, _, hgroups, hblank⟩
      refine Aws.haveIds_members_iff.1 ?_ hblank
      rw [← hgroups, hnone]
      exact Ean.haveIds_nil
    · rw [hgroups, Aws.haveIds_members_iff, not_iff_not]
      constructor
      · exact fun hblank => ⟨k, region, names, groups, hk, hgroups, hblank⟩
      · rintro ⟨_, _, _, groups', _, hgroups', hblank⟩
        by_contra hnot
        refine Aws.haveIds_members_iff.1 ?_ hblank
        rw [← hgroups', hgroups]
        exact Aws.haveIds_members_iff.2 hnot
  | azure config stamp job ofPass world cancelled =>
    refine hsound ?_ id
    exact ((Azure.collects_of_mem_pass ofPass).report_meets (w := world) (s := ()) trivial
      Azure.Call.words cancelled).records r hr
  | gcp config ttl turn ofPass caches =>
    obtain ⟨capacity, us, hus, rfl⟩ := hfilled
    refine hsound ?_ id
    exact (ofPass.report_meets (Gcp.cachesIds_cachesAfter hus)).records r hr trivial
  | kube config fetches stamp stores job ofPass world cancelled =>
    refine hsound ?_ id
    exact ((Kube.collects_of_mem_pass ofPass).report_meets (w := world) (s := ()) trivial
      (fun _ => []) cancelled).records r hr

/-- CORRECT: a published record has a name, of which its id is a part and which reads back, and all
its parents read back. All its children do unless they are the members of autoscaling groups that
the service has answered with an empty id among them. -/
theorem names_read_iff (task : Task) (hfilled : task.Filled) {r : Record}
    (hr : r ∈ task.report.records) :
    (∃ e, r.ean = some e ∧ r.id = some e.id ∧ e.Reads) ∧ (∀ e ∈ r.parents, e.Reads) ∧
      ((∀ e ∈ r.children, e.Reads) ↔ ¬ task.HasBlankMember r) := by
  obtain ⟨⟨e, hean, hid, hne⟩, hparents, hchildren⟩ := named_of_mem_records hfilled hr
  refine ⟨⟨e, hean, hid, Ean.reads_iff.2 hne⟩, Ean.forall_reads_iff.2 hparents, ?_⟩
  rw [Ean.forall_reads_iff]
  exact hchildren

/-! ### A member with an empty id -/

/-- A cluster with one node group, in whose one autoscaling group there is a member with an empty
id. -/
def blankMember : World Aws.Call Aws.Answer where
  answer := fun _ call => match call with
    | .listClusters _ => .ok ["c"]
    | .describeCluster _ _ => .ok ⟨some "c", some "arn:aws:eks:r:1:cluster/c", none, none, .empty⟩
    | .listNodegroups _ _ => .ok ["n"]
    | .describeNodegroup _ _ _ => .ok ⟨some "n", some ⟨[⟨some "g"⟩]⟩⟩
    | .describeAutoScalingGroups _ _ => .ok [⟨some "g", [⟨some ""⟩]⟩]
    | .describeInstances _ => .ok []
    | .describeVpcs _ => .ok []
    | .describeSubnets _ => .ok []
  signal := fun _ _ => none

/-- A single region. -/
def oneRegion : AwsConfig := ⟨.standard, ["r"], none, none, none⟩

/-- The job for clusters. -/
def blankMemberJob : Job Unit Aws.Call Aws.Answer :=
  ⟨.cluster, "r", Aws.collectClusters ⟨.epoch, none⟩ "r"⟩

theorem blankMemberJob_mem_pass : blankMemberJob ∈ Aws.pass oneRegion .epoch := by
  refine List.mem_flatMap.2 ⟨"r", List.mem_singleton_self _, List.mem_filterMap.2 ?_⟩
  refine ⟨.cluster, ?_, rfl⟩
  decide +kernel

/-- The cluster is published with a child that does not read back. -/
theorem not_reads_blankMember :
    ∃ (task : Task) (r : Record), task.Filled ∧ r ∈ task.report.records ∧
      r.children = [⟨.host, ""⟩] ∧ task.HasBlankMember r ∧ ¬ ∀ e ∈ r.children, e.Reads := by
  let task : Task := .aws oneRegion .epoch blankMemberJob blankMemberJob_mem_pass blankMember false
  have hrecords : task.report.records.map Record.children = [[⟨.host, ""⟩]] := by decide +kernel
  obtain ⟨r, hr, hchildren⟩ := List.mem_map.1 (hrecords ▸ List.mem_cons_self)
  obtain ⟨-, -, hiff⟩ := names_read_iff task trivial hr
  have hblank : task.HasBlankMember r :=
    ⟨0, "r", [], [⟨some "g", [⟨some ""⟩]⟩], rfl, hchildren, _, List.mem_singleton_self _, _,
      List.mem_singleton_self _, rfl⟩
  exact ⟨task, r, trivial, hr, hchildren, hblank, fun hreads => hiff.1 hreads hblank⟩

end Task

end CloudInventory
