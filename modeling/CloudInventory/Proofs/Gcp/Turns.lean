import CloudInventory.Collector
import CloudInventory.Proofs.Gcp.Clusters

/-!
What a job of a pass leaves. Each goes through the projects with the work for its type. Those for
networks and for subnetworks leave the machines as they are, the one for machines stores what it is
told, and the one for clusters publishes records of clusters, whether or not they break off. A run
takes such jobs one after another, and the first finds empty caches.
-/

namespace CloudInventory.Gcp

/-- A job that is run at some time in some world. -/
structure Turn where
  stamp : Instant
  now : Nat
  job : Job Caches Call Answer
  world : World Call Answer
  /-- Shutdown has been signalled before. -/
  cancelled : Bool

namespace Turn

variable {config : GcpConfig} {ttl : Nat} {u : Turn} {s : Caches}

/-- What the job has in common with the others of its pass. -/
def setting (u : Turn) (config : GcpConfig) (ttl : Nat) : Setting :=
  .ofConfig config ttl u.stamp u.now

/-- The job is one of a pass. -/
def OfPass (config : GcpConfig) (ttl : Nat) (u : Turn) : Prop :=
  u.job ∈ pass config ttl u.stamp u.now

/-- What the job does, and the caches it leaves. -/
def report (u : Turn) (s : Caches) : JobReport × Caches × Bool :=
  u.job.report u.world Call.words s u.cancelled

/-- What has happened when the job is over. -/
def session (u : Turn) (s : Caches) : Session Call :=
  ((u.job.work.run.run s).run u.world (.start u.cancelled)).2

/-- The job goes through the projects with the work for its type. -/
theorem OfPass.work (h : u.OfPass config ttl) :
    ∃ collect, workIn? (u.setting config ttl) u.job.type = some collect ∧
      u.job.work = Work.scopes collect config.projects := by
  obtain ⟨type, -, hjob⟩ := List.mem_filterMap.1 h
  obtain ⟨work, hwork, he⟩ := Option.map_eq_some_iff.1 hjob
  obtain ⟨collect, hcollect, rfl⟩ := Option.map_eq_some_iff.1 hwork
  rw [← he]
  exact ⟨collect, hcollect, rfl⟩

theorem OfPass.type_eq (h : u.OfPass config ttl) :
    u.job.type = .gceInstance ∨ u.job.type = .gcpVpc ∨ u.job.type = .gcpSubnet ∨
      u.job.type = .cluster := by
  obtain ⟨collect, hcollect, -⟩ := h.work
  unfold workIn? at hcollect
  split at hcollect <;> simp_all

/-- What holds of the caches and of what has happened after a job, if its work ensures it in the end
and where it breaks off. -/
theorem OfPass.after (hu : u.OfPass config ttl) {collect : String → Try Nat}
    (hcollect : workIn? (u.setting config ttl) u.job.type = some collect)
    {R P : Caches → Session Call → Prop}
    (h : Work.Ensures u.world R (Work.scopes collect config.projects).run s (.start u.cancelled)
      fun _ => P)
    (hR : ∀ s' t', R s' t' → P s' t') : P (u.report s).2.1 (u.session s) := by
  obtain ⟨collect', hcollect', hwork⟩ := hu.work
  obtain rfl := Option.some.inj (hcollect.symm.trans hcollect')
  have hrun : u.job.work.run.run s = (Work.scopes collect config.projects).run s := by
    rw [hwork]
    rfl
  obtain ⟨left, t', hended, hleft⟩ | ⟨result, s', t', hended, hP⟩ := h.ends
  · have hjob := hrun.symm ▸ hended
    rw [report, Job.report_of_brokenOff hjob, session, hjob]
    exact hR left t' hleft
  · have hjob := hrun.symm ▸ hended
    rw [report, Job.report_of_result hjob, session, hjob]
    exact hP

/-- Jobs for networks and for subnetworks leave the machines. -/
theorem OfPass.instances_eq (hu : u.OfPass config ttl)
    (htype : u.job.type = .gcpVpc ∨ u.job.type = .gcpSubnet) :
    (u.report s).2.1.instances = s.instances := by
  let same : Caches → Session Call → Prop := fun s' _ => s'.instances = s.instances
  rcases htype with htype | htype
  · refine hu.after (P := same) (R := same) (by rw [htype]; rfl) ?_ fun _ _ => id
    refine Work.ensures_scopes (fun _ => same) ?_ rfl
    rintro done project - s₁ t₁ hI
    exact (ensures_vpcsOf.weaken fun _ _ h => h.trans hI).mono fun _ _ _ h warnings => h.trans hI
  · refine hu.after (P := same) (R := same) (by rw [htype]; rfl) ?_ fun _ _ => id
    refine Work.ensures_scopes (fun _ => same) ?_ rfl
    rintro done project - s₁ t₁ hI
    exact (ensures_subnetsOf.weaken fun _ _ h => h.trans hI).mono fun _ _ _ h warnings =>
      h.trans hI

/-- The job for machines stores what it is told. -/
theorem OfPass.instances_told (hu : u.OfPass config ttl) (htype : u.job.type = .gceInstance)
    {P : InstanceSummary → Prop} (h : AllStored P s.instances) :
    AllStored (fun v => P v ∨ v.account ∈ config.projects ∧ Told u.world (u.session s) v)
      (u.report s).2.1.instances := by
  let sourced : Caches → Session Call → Prop := fun s' t' =>
    AllStored (fun v => P v ∨ v.account ∈ config.projects ∧ Told u.world t' v) s'.instances
  refine hu.after (P := sourced) (R := sourced) (by rw [htype]; rfl) ?_ fun _ _ => id
  refine Work.ensures_scopes (fun _ => sourced) ?_ (h.mono fun _ => .inl)
  rintro done project hproject s₁ t₁ hI
  have hproject' : project ∈ (u.setting config ttl).projects := hproject.subset (by simp)
  refine (ensures_instancesOf hproject' hI fun _ _ => id).mono fun _ s₂ t₂ h warnings => ?_
  exact AllStored.mono h fun v hv => hv.imp_right fun hv => ⟨hv.1, hv.2.later List.prefix_rfl⟩

/-- The job for clusters publishes records of clusters. -/
theorem OfPass.publishing (hu : u.OfPass config ttl) (htype : u.job.type = .cluster)
    {live : List (Held InstanceSummary)} (h : s.instances.Shows u.now live) :
    Publishing u.world (u.setting config ttl) s.instances live (u.report s).2.1 (u.session s) := by
  refine hu.after (R := fun _ _ => False) (by rw [htype]; rfl) ?_ fun _ _ h => h.elim
  exact Publishing.scopes ⟨h, .refl _, fun _ hr => absurd hr List.not_mem_nil⟩

end Turn

/-! ### Runs -/

/-- The caches after turns, taken one after another. -/
def cachesAfter (capacity : Nat) (us : List Turn) : Caches :=
  us.foldl (fun s u => (u.report s).2.1) (.withCapacity capacity)

theorem cachesAfter_concat (capacity : Nat) (us : List Turn) (u : Turn) :
    cachesAfter capacity (us ++ [u]) = (u.report (cachesAfter capacity us)).2.1 := by
  rw [cachesAfter, List.foldl_append]
  rfl

end CloudInventory.Gcp
