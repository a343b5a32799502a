import CloudInventory.Proofs.Record.Names
import CloudInventory.Proofs.Task.Basic
import Mathlib.Data.List.Induction

/-!
What the jobs for Google Cloud publish. Where a project is gone through with a single call, the job
tells how many records it has published; where clusters are listed by regions, one call after
another, only a success tells that. All names in the records have ids, as long as all machines in
the cache have; and no job stores a machine without an id. So `given` stands for the supposition
that the machines have ids: counts are told without it.
-/

namespace CloudInventory.Gcp

variable {w : World Call Answer} {g : Setting} {project : String}

/-- On a supposition, all machines in the cache have ids. -/
def CachesIds (given : Prop) (s : Caches) : Prop :=
  given → AllStored (fun v => v.id ≠ "") s.instances

/-- On a supposition, all names in a record have ids. -/
def NamedIf (given : Prop) (r : Record) : Prop := given → r.Named Ean.HaveIds

section Records

variable {given : Prop}

/-- Work that counts its records and keeps to the ids. -/
abbrev Publishes (given : Prop) (w : World Call Answer) (m : Step Nat) : Prop :=
  Work.Emits w (CachesIds given) (NamedIf given) m Work.Counts

/-- An attempt that keeps to the ids. -/
abbrev Collects (given : Prop) (w : World Call Answer) (m : Try Nat)
    (V : Except CollectorError Nat → List Record → Prop) : Prop :=
  Work.Emits w (CachesIds given) (NamedIf given) m.run V

/-! ### Records of items -/

theorem names_statePatch {C : List Ean → Prop} (state : Option String) :
    ∀ p ∈ statePatch state, p.Names C :=
  Patch.names_optional fun _ _ => trivial

theorem named_vpcRecord (i : Network) {id : String} (hid : id ≠ "") :
    (vpcRecord g project i id).Named Ean.HaveIds := by
  refine Record.named_compose _ _ _ hid Ean.haveIds_nil ?_
  simp only [List.forall_mem_append]
  refine ⟨?_, Patch.names_maybeName _⟩
  simp [Patch.Names]

theorem named_subnetRecord (i : Subnetwork) {id : String} (hid : id ≠ "") {parents : List Ean}
    (hparents : Ean.HaveIds parents) :
    (subnetRecord g project i id parents).Named Ean.HaveIds := by
  refine Record.named_compose _ _ _ hid Ean.haveIds_nil ?_
  simp only [List.forall_mem_append]
  refine ⟨⟨?_, Patch.names_maybeName _⟩, ?_⟩
  · simp [Patch.Names]
  · simpa [Patch.Names] using hparents

theorem named_machineRecord (i : Instance) {v : InstanceSummary} (hv : v.id ≠ "")
    {parents : List Ean} (hparents : Ean.HaveIds parents) :
    (machineRecord g project i v parents).Named Ean.HaveIds := by
  refine Record.named_compose _ _ _ hv Ean.haveIds_nil ?_
  simp only [List.forall_mem_append]
  refine ⟨⟨⟨?_, Patch.names_maybeName _⟩, ?_⟩, names_statePatch _⟩
  · simp [Patch.Names]
  · simpa [Patch.Names] using hparents

theorem named_clusterRecord (c : GkeCluster) {id : String} (hid : id ≠ "") {parents : List Ean}
    (hparents : Ean.HaveIds parents) {ids : List String} (hids : ∀ i ∈ ids, i ≠ "") :
    (clusterRecord g project c id parents ids).Named Ean.HaveIds := by
  have hchildren : Ean.HaveIds (ids.map fun i => ⟨.host, i⟩) := by
    intro e he
    obtain ⟨i, hi, rfl⟩ := List.mem_map.1 he
    exact hids i hi
  refine Record.named_compose _ _ _ hid Ean.haveIds_nil ?_
  simp only [List.forall_mem_append]
  refine ⟨⟨⟨?_, Patch.names_maybeName _⟩, ?_⟩, names_statePatch _⟩
  · simp [Patch.Names]
  · simpa [Patch.Names] using ⟨hparents, hchildren⟩

/-! ### Edges -/

/-- Whatever a cache holds, the names that links lead to have ids. -/
theorem haveIds_found {α : Type} [HasId α] : ∀ (links : List String) (c : Cache α),
    Ean.HaveIds (g.found c links)
  | [], _ => Ean.haveIds_nil
  | link :: links, c => by
    intro e he
    rcases List.mem_append.1 he with he | he
    · have hresolve : (c.resolve link .network g.now).1 = some e := Option.mem_toList.1 he
      unfold Cache.resolve at hresolve
      split at hresolve
      case isTrue => cases hresolve
      case isFalse =>
        split at hresolve
        · split at hresolve
          case isTrue => cases hresolve
          case isFalse hid =>
            obtain rfl := Option.some.inj hresolve
            exact hid
        · cases hresolve
    · exact haveIds_found links _ e he

theorem summary?_id {zone : String} {i : Instance} {v : InstanceSummary}
    (h : summary? project zone i = some v) : v.id ≠ "" := by
  obtain ⟨id, hid, rfl⟩ := Option.map_eq_some_iff.1 h
  exact Text.ne_empty_of_bind_nonEmpty hid

theorem Told.id_ne {t : Session Call} {v : InstanceSummary} (h : Told w t v) : v.id ≠ "" := by
  obtain ⟨filter, zones, -, hv⟩ := h
  obtain ⟨z, -, i, -, hsummary⟩ := mem_known.1 hv
  exact summary?_id hsummary

/-- What a search finds has ids if all that is live in the cache has. -/
theorem Finds.ids {t : Session Call} {live : List (Held InstanceSummary)} {c : GkeCluster}
    {ids : List String} (h : Finds w t live project c ids) (hlive : ∀ x ∈ live, x.value.id ≠ "") :
    ∀ id ∈ ids, id ≠ "" := by
  intro id hid
  cases h with
  | cached _ hids =>
    obtain ⟨x, hx, -, rfl⟩ := (hids id).1 hid
    exact hlive x hx
  | listed _ hids =>
    obtain ⟨v, htold, -, -, rfl⟩ := hids id hid
    exact htold.id_ne

/-! ### Jobs -/

theorem publishes_vpc (i : Network) : Publishes given w (publishVpc g project i) := by
  intro s t hs
  refine ensures_publishVpc (fun _ warnings => ?_) (fun id hid _ => ?_) fun id hid _ => ?_
  · exact ⟨hs, [], Session.adds_nil rfl, rfl⟩
  · have hid' : id ≠ "" := Text.ne_empty_of_bind_nonEmpty hid
    exact ⟨hs, [_], Session.adds_singleton (fun _ => named_vpcRecord i hid') rfl, rfl⟩
  · exact ⟨hs, [], Session.adds_nil rfl⟩

theorem publishes_subnet (i : Subnetwork) : Publishes given w (publishSubnet g project i) := by
  intro s t hs
  refine ensures_publishSubnet (fun _ warnings => ?_) (fun id hid _ => ?_) fun id hid _ => ?_
  · exact ⟨hs, [], Session.adds_nil rfl, rfl⟩
  · have hid' : id ≠ "" := Text.ne_empty_of_bind_nonEmpty hid
    have hnamed : NamedIf given (subnetRecord g project i id (g.found s.vpcs i.network.toList)) :=
      fun _ => named_subnetRecord i hid' (haveIds_found _ _)
    exact ⟨hs, [_], Session.adds_singleton hnamed rfl, rfl⟩
  · exact ⟨hs, [], Session.adds_nil rfl⟩

theorem publishes_instance (zone : String) (i : Instance) :
    Publishes given w (publishInstance g project zone i) := by
  intro s t hs
  have hkept {v : InstanceSummary} (hv : summary? project zone i = some v) :
      given → AllStored (fun v => v.id ≠ "") (g.keeping i.selfLink v s.instances) := by
    intro hgiven
    rw [← stored_of_some hv]
    exact (hs hgiven).stored fun v hv => summary?_id hv
  refine ensures_publishInstance (fun _ warnings => ?_) (fun v hv _ => ?_) fun v hv _ => ?_
  · exact ⟨hs, [], Session.adds_nil rfl, rfl⟩
  · have hnamed : NamedIf given (machineRecord g project i v (g.found s.subnets i.subnetLinks)) :=
      fun _ => named_machineRecord i (summary?_id hv) (haveIds_found _ _)
    exact ⟨hkept hv, [_], Session.adds_singleton hnamed rfl, rfl⟩
  · exact ⟨hkept hv, [], Session.adds_nil rfl⟩

theorem publishes_cluster (c : GkeCluster) : Publishes given w (publishCluster g project c) := by
  intro s t hs
  cases hid : c.id.bind Text.nonEmpty with
  | none =>
    exact ensures_publishCluster_skip hid fun _ => ⟨hs, [], Session.adds_nil rfl, rfl⟩
  | some id =>
    refine ensures_publishCluster hid fun warnings => ?_
    refine ⟨fun hgiven => (hs hgiven).of_partOf (partOf_search _ _ _ _ _), [_],
      Session.adds_singleton ?_ rfl, rfl⟩
    intro hgiven
    obtain ⟨live, hshows⟩ := s.instances.exists_shows g.now
    refine named_clusterRecord c (Text.ne_empty_of_bind_nonEmpty hid) (haveIds_found _ _) ?_
    exact (clusterSearch_finds hshows).ids fun x hx =>
      (hs hgiven).lives (hshows.lives_iff.2 ⟨x, hx, rfl⟩)

theorem collects_clustersUnder (parent : String) :
    Collects given w (clustersUnder g project parent) Work.Tells :=
  Work.emits_askThen fun _ _ _ => Work.emits_total fun c _ => publishes_cluster c

variable {type : AssetType} {collect : String → Try Nat}

/-- In a project for which a single call is made, a failure comes before any record. -/
theorem tells_of_workIn? (h : workIn? g type = some collect)
    (hsingle : type ≠ .cluster ∨ g.regions.length ≤ 1) (project : String) :
    Collects given w (collect project) Work.Tells := by
  unfold workIn? at h
  split at h
  · obtain rfl := Option.some.inj h
    exact Work.emits_askThen fun _ _ _ => Work.emits_total fun z _ =>
      Work.emits_total fun i _ => publishes_instance z.zone i
  · obtain rfl := Option.some.inj h
    exact Work.emits_askThen fun _ _ _ => Work.emits_total fun i _ => publishes_vpc i
  · obtain rfl := Option.some.inj h
    exact Work.emits_askThen fun _ _ _ => Work.emits_total fun i _ => publishes_subnet i
  · obtain rfl := Option.some.inj h
    obtain ⟨parent, hparent⟩ : ∃ parent, clusterParents g.regions project = [parent] := by
      unfold clusterParents
      rcases hregions : g.regions with _ | ⟨region, _ | ⟨region', rest⟩⟩
      · exact ⟨_, rfl⟩
      · exact ⟨_, rfl⟩
      · rw [hregions] at hsingle
        simp at hsingle
    rw [clustersOf, hparent]
    exact Work.emits_totalAttempt_singleton (collects_clustersUnder parent)
  · cases h

/-- In any project, a success tells how many records have been published. -/
theorem collects_of_workIn? (h : workIn? g type = some collect) (project : String) :
    Collects given w (collect project) Work.CountsIfOk := by
  by_cases htype : type = .cluster
  · subst htype
    obtain rfl : clustersOf g = collect := Option.some.inj h
    exact Work.emits_totalAttempt fun parent _ =>
      (collects_clustersUnder parent).mono fun _ _ => Work.Tells.countsIfOk
  · exact (tells_of_workIn? h (.inl htype) project).mono fun _ _ => Work.Tells.countsIfOk

end Records

/-! ### Turns -/

namespace Turn

variable {config : GcpConfig} {ttl : Nat} {u : Turn} {s : Caches} {given : Prop}

/-- How many records go out for projects that fail after all. -/
def lost (u : Turn) (config : GcpConfig) (ttl : Nat) (s : Caches) : Nat :=
  match workIn? (u.setting config ttl) u.job.type with
  | some collect => Work.lost u.world collect config.projects s (.start u.cancelled)
  | none => 0

/-- What a job publishes, and how many of its records are in no count. -/
theorem OfPass.ensures (hu : u.OfPass config ttl) (hs : CachesIds given s) :
    Work.Ensures u.world
      (fun s' t' => CachesIds given s' ∧
        ∃ new, (Session.start u.cancelled).Adds (NamedIf given) t' new)
      u.job.work.run s (.start u.cancelled) fun r s' t' =>
        CachesIds given s' ∧ ∃ new, (Session.start u.cancelled).Adds (NamedIf given) t' new ∧
          new.length = Work.counted r + u.lost config ttl s := by
  obtain ⟨collect, hcollect, hwork⟩ := hu.work
  rw [lost, hcollect, hwork]
  exact Work.ensures_scopes_lost (fun project _ => collects_of_workIn? hcollect project) hs

theorem OfPass.report_meets (hu : u.OfPass config ttl) (hs : CachesIds given s) :
    (u.report s).1.Meets (NamedIf given) fun r new =>
      new.length = Work.counted r + u.lost config ttl s :=
  Job.report_meets Call.words (((hu.ensures hs).weaken fun _ _ h => h.2).mono fun _ _ _ h => h.2)

theorem OfPass.cachesIds (hu : u.OfPass config ttl) (hs : CachesIds given s) :
    CachesIds given (u.report s).2.1 := by
  obtain ⟨collect, hcollect, hwork⟩ := hu.work
  refine hu.after (P := fun s' _ => CachesIds given s') hcollect
    ((Work.ensures_scopes_lost (fun project _ => collects_of_workIn? hcollect project) hs).mono
      fun _ _ _ h => h.1) fun _ _ h => h.1

/-- Only jobs for clusters that are listed by regions lose any. -/
theorem OfPass.lost_eq_zero (hu : u.OfPass config ttl)
    (hsingle : u.job.type ≠ .cluster ∨ config.regions.length ≤ 1) : u.lost config ttl s = 0 := by
  obtain ⟨collect, hcollect, -⟩ := hu.work
  rw [lost, hcollect]
  have hs : CachesIds False s := False.elim
  exact Work.lost_eq_zero (fun project _ => tells_of_workIn? hcollect hsingle project) hs

end Turn

/-- No job of a run stores a machine without an id. -/
theorem cachesIds_cachesAfter {config : GcpConfig} {ttl capacity : Nat} {us : List Turn}
    (hus : ∀ u ∈ us, u.OfPass config ttl) :
    CachesIds True (cachesAfter capacity us) := by
  induction us using List.reverseRecOn with
  | nil => exact fun _ => .withCapacity capacity
  | append_singleton us u ih =>
    have hu : u.OfPass config ttl := hus u (List.mem_append_right _ (List.mem_singleton_self u))
    rw [cachesAfter_concat]
    exact hu.cachesIds (ih fun v hv => hus v (List.mem_append_left _ hv))

end CloudInventory.Gcp
