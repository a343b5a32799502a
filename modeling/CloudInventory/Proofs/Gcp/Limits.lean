import CloudInventory.Proofs.Gcp.Keeping
import CloudInventory.Proofs.Program.Limits
import CloudInventory.Proofs.Record.Documents

/-!
Limits of the jobs for Google Cloud. The work for a type in a project begins with a call for that
project and makes no calls for others, and publishes plain records. Publishing makes no calls, but
for the listing of machines among which those of a cluster are looked for, and it breaks off only at
an item that has a link of its own when the clock cannot tell how long the item is to be kept.
-/

namespace CloudInventory.Gcp

/-- A call is for a project, of which clusters are listed in regions. -/
def Call.For (regions : List String) (project : String) : Call → Prop
  | .listNetworks p => p = project
  | .listSubnetworks p => p = project
  | .listInstances p _ => p = project
  | .listClusters parent => parent ∈ clusterParents regions project

/-- Machines of a project are listed, but not all of them. -/
def Call.Looks (project : String) : Call → Prop
  | .listInstances p filter => p = project ∧ filter.isSome
  | .listNetworks _ | .listSubnetworks _ | .listClusters _ => False

/-- There is a link, but what is kept under it would expire when the clock cannot tell the time. -/
def Setting.stops (g : Setting) (link : Option String) : Bool :=
  link.isSome && !Clock.tells g.now g.ttl

section Steps

variable {g : Setting} {project : String} {Q : Call → Prop} {P : Record → Prop}

theorem Call.Looks.for {regions : List String} {c : Call} (h : c.Looks project) :
    c.For regions project := by
  cases c with
  | listInstances => exact h.1
  | listNetworks | listSubnetworks | listClusters => exact h.elim

theorem isPlain_statePatch (state : Option String) :
    ∀ p ∈ statePatch state, p.isPlain = true := by
  simp [statePatch, Patch.isPlain, Patch.entry]

theorem keepsTo_keep {α : Type} (get : Caches → Cache α) (set : Caches → Cache α → Caches)
    (link : Option String) (value : α) :
    Work.KeepsTo (g.stops (link.bind Text.nonEmpty) = true) Q P (keep g get set link value) := by
  rcases keep_cases g get set link value with
    ⟨-, hkeep⟩ | ⟨l, -, -, hkeep⟩ | ⟨l, hlink, htells, hkeep⟩
  · exact hkeep ▸ Work.keepsTo_pure ()
  · exact hkeep ▸ Work.keepsTo_modify _
  · refine hkeep ▸ (Work.keepsTo_modify _).bind fun _ => Work.keepsTo_crash ?_
    rw [Setting.stops, hlink, htells]
    rfl

theorem keepsTo_resolveVpc? {B : Prop} (link : Option String) :
    Work.KeepsTo B Q P (resolveVpc? g link) := by
  unfold resolveVpc?
  split
  · exact Work.keepsTo_pure []
  · exact (Work.keepsTo_modifyGet _).bind fun _ => Work.keepsTo_pure _

theorem keepsTo_clusterChildren {B : Prop} (region : String) (c : GkeCluster) :
    Work.KeepsTo B (Call.Looks project) P (clusterChildren g project region c) := by
  have hids : Work.KeepsTo B (Call.Looks project) P (clusterIds g project region c).run := by
    refine (Work.KeepsTo.lift (Work.keepsTo_modifyGet _)).attempt fun known => ?_
    cases known with
    | some ids => exact Work.keepsTo_return ids
    | none =>
      have hlooks : (Call.listInstances project (some (zoneFilter region))).Looks project :=
        ⟨rfl, rfl⟩
      exact (Work.keepsTo_ask hlooks).attempt fun zones => Work.keepsTo_return _
  refine hids.bind fun answer => ?_
  cases answer with
  | ok ids => exact Work.keepsTo_pure _
  | error cause => exact (Work.keepsTo_warn _).bind fun _ => Work.keepsTo_pure _

end Steps

/-! ### Publishing -/

section Publishing

variable {g : Setting} {project : String} {Q : Call → Prop}

theorem keepsTo_publishVpc (n : Network) :
    Work.KeepsTo (g.stops (n.selfLink.bind Text.nonEmpty) = true) Q (Record.Plain g.emitter.space)
      (publishVpc g project n) := by
  unfold publishVpc
  split
  · exact Work.keepsTo_skip _ _
  · refine (keepsTo_keep _ _ _ _).bind fun _ => Work.keepsTo_emit (Record.plain_compose ?_)
    simp only [List.forall_mem_append]
    exact ⟨by simp [Patch.isPlain], Patch.isPlain_maybeName _⟩

theorem keepsTo_publishSubnet (n : Subnetwork) :
    Work.KeepsTo (g.stops (n.selfLink.bind Text.nonEmpty) = true) Q (Record.Plain g.emitter.space)
      (publishSubnet g project n) := by
  unfold publishSubnet
  split
  · exact Work.keepsTo_skip _ _
  · refine (keepsTo_keep _ _ _ _).bind fun _ => (keepsTo_resolveVpc? _).bind fun parents => ?_
    refine Work.keepsTo_emit (Record.plain_compose ?_)
    simp only [List.forall_mem_append]
    exact ⟨⟨by simp [Patch.isPlain], Patch.isPlain_maybeName _⟩, by simp [Patch.isPlain]⟩

theorem keepsTo_publishInstance (zone : String) (i : Instance) :
    Work.KeepsTo (g.stops (i.selfLink.bind Text.nonEmpty) = true) Q (Record.Plain g.emitter.space)
      (publishInstance g project zone i) := by
  unfold publishInstance
  split
  · exact Work.keepsTo_skip _ _
  · refine (keepsTo_keep _ _ _ _).bind fun _ => (Work.keepsTo_modifyGet _).bind fun parents => ?_
    refine Work.keepsTo_emit (Record.plain_compose ?_)
    simp only [List.forall_mem_append]
    refine ⟨⟨⟨?_, Patch.isPlain_maybeName _⟩, ?_⟩, isPlain_statePatch _⟩
    all_goals simp [Patch.isPlain]

theorem keepsTo_publishCluster (c : GkeCluster) :
    Work.KeepsTo False (Call.Looks project) (Record.Plain g.emitter.space)
      (publishCluster g project c) := by
  unfold publishCluster
  split
  · exact Work.keepsTo_skip _ _
  · refine (keepsTo_resolveVpc? _).bind fun parents => ?_
    refine (keepsTo_clusterChildren _ c).bind fun children => ?_
    refine Work.keepsTo_emit (Record.plain_compose ?_)
    simp only [List.forall_mem_append]
    refine ⟨⟨⟨?_, Patch.isPlain_maybeName _⟩, ?_⟩, isPlain_statePatch _⟩
    all_goals simp [Patch.isPlain]

end Publishing

/-! ### Jobs -/

section Jobs

variable {g : Setting} {project : String}

theorem keepsTo_vpcsOf : Work.KeepsTo True (Call.For g.regions project)
    (Record.Plain g.emitter.space) (vpcsOf g project).run :=
  Work.keepsTo_askTotal rfl fun n => (keepsTo_publishVpc n).mono (fun _ => trivial) fun _ => id

theorem keepsTo_subnetsOf : Work.KeepsTo True (Call.For g.regions project)
    (Record.Plain g.emitter.space) (subnetsOf g project).run :=
  Work.keepsTo_askTotal rfl fun n => (keepsTo_publishSubnet n).mono (fun _ => trivial) fun _ => id

theorem keepsTo_instancesOf : Work.KeepsTo True (Call.For g.regions project)
    (Record.Plain g.emitter.space) (instancesOf g project).run := by
  refine Work.keepsTo_askTotal rfl fun z => Work.keepsTo_total fun i _ => ?_
  exact (keepsTo_publishInstance z.zone i).mono (fun _ => trivial) fun _ => id

theorem keepsTo_clustersOf : Work.KeepsTo True (Call.For g.regions project)
    (Record.Plain g.emitter.space) (clustersOf g project).run := by
  refine Work.keepsTo_totalAttempt fun parent hparent => ?_
  refine Work.keepsTo_askTotal (Q := Call.For g.regions project) hparent fun c => ?_
  exact (keepsTo_publishCluster c).mono False.elim fun _ hc => hc.for

theorem clusterParents_ne_nil (regions : List String) (project : String) :
    clusterParents regions project ≠ [] := by
  rw [clusterParents, Ne, List.map_eq_nil_iff]
  split <;> simp_all

theorem beginsWith_clustersOf :
    Work.BeginsWith (Call.For g.regions project) (clustersOf g project).run := by
  intro s
  obtain ⟨parent, parents, hparents⟩ :=
    List.exists_cons_of_ne_nil (clusterParents_ne_nil g.regions project)
  have hfor : Call.For g.regions project (.listClusters parent) := by
    show parent ∈ clusterParents g.regions project
    rw [hparents]
    exact List.mem_cons_self
  unfold clustersOf
  rw [hparents]
  exact ⟨.listClusters parent, _, rfl, hfor⟩

/-- The work for a type calls for the project alone, begins with a call for it, and publishes plain
records. -/
theorem keepsTo_beginsWith {type : AssetType} {collect : String → Try Nat}
    (h : workIn? g type = some collect) (project : String) :
    Work.KeepsTo True (Call.For g.regions project) (Record.Plain g.emitter.space)
        (collect project).run ∧
      Work.BeginsWith (Call.For g.regions project) (collect project).run := by
  unfold workIn? at h
  split at h
  · exact Option.some.inj h ▸ ⟨keepsTo_instancesOf, fun _ => ⟨_, _, rfl, rfl⟩⟩
  · exact Option.some.inj h ▸ ⟨keepsTo_vpcsOf, fun _ => ⟨_, _, rfl, rfl⟩⟩
  · exact Option.some.inj h ▸ ⟨keepsTo_subnetsOf, fun _ => ⟨_, _, rfl, rfl⟩⟩
  · exact Option.some.inj h ▸ ⟨keepsTo_clustersOf, beginsWith_clustersOf⟩
  · cases h

end Jobs

end CloudInventory.Gcp
