import CloudInventory.Proofs.Gcp.Parents
import CloudInventory.Proofs.Program.Observers
import CloudInventory.Proofs.Record.Bare

/-!
What caches can do to a job: nothing but to the edges of its records. An onlooker hears the listings
that a job makes of its own, but no search for the machines of a cluster, and sees records without
their edges. Every job is steady to it. So the main statement is this: two runs of a job in
which its listings have been answered alike, whatever the caches and the answers to searches, end
the same and publish the same records up to edges. And there is one for each item with an id that
the listings tell of, whether its links lead anywhere or not.
-/

namespace CloudInventory.Gcp

/-- The call is a listing that a job makes of its own, and not the search for the machines of a
cluster. -/
def Call.isListing : Call → Bool
  | listInstances _ (some _) => false
  | _ => true

/-- Who hears listings, and sees records without their edges. -/
def onlooker : Observer Call := ⟨Call.isListing, Record.bare⟩

/-! ### Steps -/

section Steps

variable (g : Setting) (project : String)

theorem steady_keep {α : Type} (get : Caches → Cache α) (set : Caches → Cache α → Caches)
    (link : Option String) (value : α) : Work.Steady onlooker (keep g get set link value) := by
  rcases keep_cases g get set link value with
    ⟨-, hkeep⟩ | ⟨l, -, -, hkeep⟩ | ⟨l, -, -, hkeep⟩
  · exact hkeep ▸ Work.steady_pure ()
  · exact hkeep ▸ Work.steady_modify _
  · exact hkeep ▸ (Work.steady_modify _).bind fun _ => Work.steady_crash

theorem silent_resolveVpc? (link : Option String) :
    Work.Silent onlooker (resolveVpc? g link) := by
  cases link with
  | none => exact Work.silent_pure []
  | some link => exact (Work.silent_modifyGet _).bind fun ean => Work.silent_pure ean.toList

/-- The search for machines may fail or call the service: an onlooker hears nothing of it. -/
theorem silent_clusterChildren (region : String) (c : GkeCluster) :
    Work.Silent onlooker (clusterChildren g project region c) := by
  have hids : Work.Silent onlooker (clusterIds g project region c).run := by
    refine (Work.silent_modifyGet _).lift.attempt fun known => ?_
    cases known with
    | some ids => exact Work.silent_pure _
    | none => exact (Work.silent_ask rfl).attempt fun zones => Work.silent_pure _
  refine hids.bind fun found => ?_
  cases found with
  | ok ids => exact Work.silent_pure _
  | error cause => exact (Work.silent_warn _).bind fun _ => Work.silent_pure []

/-- Descriptions that differ in edges only make records of which an onlooker sees the same. -/
theorem alike_emit (e : Emitter) (type : AssetType) (id : String) {ps ps' : List Patch}
    (h : (ps.filter fun p => !p.setsEdges) = ps'.filter fun p => !p.setsEdges) :
    Work.Alike onlooker Eq (e.emit type id ps : Step Unit) (e.emit type id ps') := by
  refine Work.alike_publish ?_
  show Record.bare _ = Record.bare _
  rw [Record.bare_compose, Record.bare_compose, List.filter_append, List.filter_append, h]

/-! ### Items -/

theorem steady_publishVpc (n : Network) : Work.Steady onlooker (publishVpc g project n) := by
  unfold publishVpc
  split
  case h_1 => exact Work.steady_skip _ _
  case h_2 id hid =>
    refine (steady_keep g _ _ n.selfLink _).bind fun _ => ?_
    exact Work.Steady.bind (alike_emit g.emitter .gcpVpc id rfl) fun _ => Work.steady_pure 1

theorem steady_publishSubnet (n : Subnetwork) :
    Work.Steady onlooker (publishSubnet g project n) := by
  unfold publishSubnet
  split
  case h_1 => exact Work.steady_skip _ _
  case h_2 id hid =>
    refine (steady_keep g _ _ n.selfLink _).bind fun _ => ?_
    -- nothing is known of how the two lists of parents relate, and nothing has to be
    refine (silent_resolveVpc? g n.network).alike.bind fun parents parents' _ => ?_
    refine Work.Alike.bind (alike_emit g.emitter .gcpSubnet id ?_) fun _ _ _ => Work.steady_pure 1
    simp [Patch.setsEdges]

theorem steady_publishInstance (zone : String) (i : Instance) :
    Work.Steady onlooker (publishInstance g project zone i) := by
  unfold publishInstance
  split
  case h_1 => exact Work.steady_skip _ _
  case h_2 v hv =>
    refine (steady_keep g _ _ i.selfLink _).bind fun _ => ?_
    refine (Work.silent_modifyGet _).alike.bind fun parents parents' _ => ?_
    refine Work.Alike.bind (alike_emit g.emitter .gceInstance v.id ?_)
      fun _ _ _ => Work.steady_pure 1
    simp [Patch.setsEdges]

theorem steady_publishCluster (c : GkeCluster) :
    Work.Steady onlooker (publishCluster g project c) := by
  unfold publishCluster
  split
  case h_1 => exact Work.steady_skip _ _
  case h_2 id hid =>
    refine (silent_resolveVpc? g c.networkLink?).alike.bind fun parents parents' _ => ?_
    refine (silent_clusterChildren g project (c.location.getD "") c).alike.bind
      fun children children' _ => ?_
    refine Work.Alike.bind (alike_emit g.emitter .cluster id ?_) fun _ _ _ => Work.steady_pure 1
    simp [Patch.setsEdges]

/-! ### Jobs -/

/-- A listing of its own, and work on what it answers that an onlooker sees the same of. -/
theorem steady_askTotal {α : Type} {call : Call} (hlisting : call.isListing = true)
    {items : Answer call → List α} {f : α → Step Nat} (h : ∀ a, Work.Steady onlooker (f a)) :
    Work.Steady onlooker
      (do let a ← Work.ask call; Work.total f (items a) : Try Nat).run :=
  (Work.steady_ask hlisting).attempt fun _ => (Work.steady_total h _).lift

/-- The work for a type in a project is steady. -/
theorem steady_of_workIn? {type : AssetType} {collect : String → Try Nat}
    (hcollect : workIn? g type = some collect) :
    Work.Steady onlooker (collect project).run := by
  unfold workIn? at hcollect
  split at hcollect
  · obtain rfl := Option.some.inj hcollect
    exact steady_askTotal rfl fun z =>
      Work.steady_total (fun i => steady_publishInstance g project z.zone i) z.instances
  · obtain rfl := Option.some.inj hcollect
    exact steady_askTotal rfl fun n => steady_publishVpc g project n
  · obtain rfl := Option.some.inj hcollect
    exact steady_askTotal rfl fun n => steady_publishSubnet g project n
  · obtain rfl := Option.some.inj hcollect
    exact Work.steady_totalAttempt
      (fun parent => steady_askTotal rfl fun c => steady_publishCluster g project c) _
  · cases hcollect

end Steps

namespace Turn

variable {config : GcpConfig} {ttl : Nat} {u v : Turn} {s s' : Caches}

/-- The listings that a job makes of its own, and what each has been answered. -/
def listings (u : Turn) (s : Caches) : List (Exchange Call Answer) :=
  onlooker.heard u.world (u.job.work.run s) (.start u.cancelled)

theorem OfPass.steady (hu : u.OfPass config ttl) : Work.Steady onlooker u.job.work.run := by
  obtain ⟨collect, hcollect, hwork⟩ := hu.work
  rw [hwork]
  exact Work.steady_scopes (fun project => steady_of_workIn? _ project hcollect) _

/-- An onlooker sees the same of two runs of a job that answer its listings alike. -/
theorem OfPass.sameView (hu : u.OfPass config ttl) (hv : v.job = u.job)
    (halike : AnsweredAlike (u.listings s) (v.listings s')) :
    (u.report s).1.outcome = (v.report s').1.outcome ∧
      (u.report s).1.records.map Record.bare = (v.report s').1.records.map Record.bare := by
  rw [listings, listings, hv] at halike
  have hruns := (hu.steady s s').run halike rfl
  have hrun : ∀ s, u.job.work.run.run s = u.job.work.run s := fun _ => rfl
  rw [report, report, hv, Job.report, Job.report, hrun, hrun]
  generalize (u.job.work.run s).run u.world _ = ended at hruns ⊢
  generalize (u.job.work.run s').run v.world _ = ended' at hruns ⊢
  obtain ⟨ending, t⟩ := ended
  obtain ⟨ending', t'⟩ := ended'
  obtain ⟨hending, hrecords⟩ := hruns
  cases hending with
  | brokenOff => exact ⟨rfl, hrecords⟩
  | result hsame => exact ⟨congrArg Outcome.ofResult hsame, hrecords⟩

/-- CORRECT: two runs of a job in which its own listings have been answered alike, from any caches
and however the searches for machines come out, end the same and publish the same sequence of
records up to parents and children. None is left out for a link that leads nowhere: unless the job
breaks off, there is a record for each item with an id that the listings tell of. -/
theorem OfPass.edges_only (hu : u.OfPass config ttl) (hv : v.job = u.job)
    (halike : AnsweredAlike (u.listings s) (v.listings s')) :
    (u.report s).1.outcome = (v.report s').1.outcome ∧
      (u.report s).1.records.map Record.bare = (v.report s').1.records.map Record.bare ∧
      List.Forall₂ (fun i r => r.id = i.id?) (u.published config s) (u.report s).1.records ∧
      ((u.report s).1.outcome ≠ .panic → u.published config s = u.told config s) := by
  obtain ⟨houtcome, hview⟩ := hu.sameView hv halike
  obtain ⟨hids, hends⟩ := hu.published_ids (s := s)
  refine ⟨houtcome, hview, hids, fun hpanic => ?_⟩
  rcases hends with ⟨-, htold⟩ | ⟨hbreak, -⟩
  · exact htold
  · exact absurd hbreak hpanic

end Turn

/-! ### A cluster with and without edges -/

/-- A cluster in a network and with a pool. -/
def pooledCluster : GkeCluster :=
  ⟨some "1", none, some "europe-west1", none, some ⟨some "projects/p/global/networks/n"⟩,
    [⟨some "a"⟩], .empty⟩

/-- The job for clusters, when the search for machines is answered by `search`. -/
def pooledTurn (search : Except CollectorError (List ZoneInstances)) : Turn where
  stamp := .epoch
  now := 0
  job := (meshedTurn 600 .cluster clustersOf 0).job
  world :=
    { answer := fun _ call => match call with
        | .listNetworks _ => .ok []
        | .listSubnetworks _ => .ok []
        | .listInstances _ (some _) => search
        | .listInstances _ none => .ok []
        | .listClusters _ => .ok [pooledCluster]
      signal := fun _ _ => none }
  cancelled := false

/-- Caches that hold the network of the cluster. -/
def networkedCaches : Caches :=
  { Caches.withCapacity 1 with
    vpcs := ((Cache.withCapacity 1).put (networkLink "projects/p/global/networks/n")
      ⟨"7", "n", "p"⟩ 1200000 0).2 }

/-- A machine in its pool. -/
def pooledZones : List ZoneInstances :=
  [⟨"zones/europe-west1-b", [⟨some "9", none, none, none, .empty, [],
    ⟨[⟨labelsKey, poolLabel ++ "=a"⟩]⟩⟩]⟩]

/-- With its network in the cache, and a machine that is found. -/
def linkedReport : JobReport := ((pooledTurn (.ok pooledZones)).report networkedCaches).1

/-- How a search fails. -/
def searchError : CollectorError :=
  .provider "gcp" "aggregated_list_instances" (.refused "injected failure")

/-- With empty caches, and a search that fails. -/
def looseReport : JobReport := ((pooledTurn (.error searchError)).report (.withCapacity 8)).1

theorem linkedReport_edges : linkedReport.outcome = .ok 1 ∧
    linkedReport.records.map (fun r => (r.parents, r.children)) =
      [([⟨.network, "7"⟩], [⟨.host, "9"⟩])] := by
  decide +kernel

theorem looseReport_edges :
    looseReport.records.map (fun r => (r.parents, r.children)) = [([], [])] := by
  decide +kernel

theorem pooledTurn_ofPass (search : Except CollectorError (List ZoneInstances)) :
    (pooledTurn search).OfPass (oneProject 600) (twice 600) := by
  show _ ∈ pass (oneProject 600) (twice 600) .epoch 0
  rw [pass_oneProject]
  simp [pooledTurn]

/-- Its listing is answered alike however the search comes out. -/
theorem pooledTurn_answeredAlike (search search' : Except CollectorError (List ZoneInstances))
    (s s' : Caches) :
    AnsweredAlike ((pooledTurn search).listings s) ((pooledTurn search').listings s') := by
  refine Observer.answeredAlike_of_calm (fun _ _ => rfl) (fun _ _ => rfl) (fun k k' c hc => ?_) _ _
  cases c with
  | listNetworks project => rfl
  | listSubnetworks project => rfl
  | listClusters parent => rfl
  | listInstances project filter =>
    cases filter with
    | none => rfl
    | some filter => cases hc

/-- The cluster has the same record both times, but for its edges. -/
theorem bare_linkedReport :
    linkedReport.outcome = .ok 1 ∧ looseReport.outcome = .ok 1 ∧
      linkedReport.records.map Record.bare = looseReport.records.map Record.bare ∧
      linkedReport.records ≠ looseReport.records := by
  have hjob : (pooledTurn (.error searchError)).job = (pooledTurn (.ok pooledZones)).job := rfl
  obtain ⟨houtcome, hbare, -, -⟩ := (pooledTurn_ofPass _).edges_only hjob
    (pooledTurn_answeredAlike _ _ networkedCaches (.withCapacity 8))
  rw [← linkedReport, ← looseReport] at houtcome hbare
  obtain ⟨hok, hedges⟩ := linkedReport_edges
  refine ⟨hok, houtcome.symm.trans hok, hbare, fun hsame => ?_⟩
  rw [hsame, looseReport_edges] at hedges
  cases hedges

end CloudInventory.Gcp
