import CloudInventory.Proofs.Gcp.Items

/-!
Where the parents of records come from, over whole runs. A run is a list of turns, which take the
jobs of passes in any order at times that never go back; the first one finds empty caches. What a
run has published so far, with the times, is its chronicle. The parents of a record are always some
of those that the chronicle tells: the networks or subnetworks behind its item's links that have
last been published less than two periods before. The main statement is that they are all of these,
as long as there is room in the caches for all that is current and no job has broken off. A job that
breaks off has taken from the cache what was there under the link of its item, and what it may have
found expired or driven out.
-/

namespace CloudInventory.Gcp

/-! ### Turns -/

namespace Turn

variable {config : GcpConfig} {ttl n : Nat} {u : Turn} {s : Caches} {sound given : Prop}
  {past : List (Nat × Item)}

/-- The items that the answers to a job's calls have told of. -/
def told (u : Turn) (config : GcpConfig) (s : Caches) : List Item :=
  (u.session s).told u.world (Item.tell config.regions)

/-- The items that a job has published: as many of the first ones as there are records. -/
def published (u : Turn) (config : GcpConfig) (s : Caches) : List Item :=
  (u.told config s).take (u.report s).1.records.length

/-- A job publishes a record for each item, unless it breaks off. -/
theorem OfPass.published (hu : u.OfPass config ttl)
    (hgiven : given → Grounds n (u.setting config ttl) past)
    (hstart : Recorded sound given n (u.setting config ttl) u.job.type past [] s) :
    List.Forall₂ (Depicts sound given (u.setting config ttl) past) (u.published config s)
        (u.report s).1.records ∧
      ((u.report s).1.outcome ≠ .panic ∧ u.published config s = u.told config s ∧
          Recorded sound given n (u.setting config ttl) u.job.type past (u.published config s)
            (u.report s).2.1 ∨
        (u.report s).1.outcome = .panic ∧
          Halted sound (u.setting config ttl) past (u.published config s) (u.report s).2.1) := by
  obtain ⟨collect, hcollect, hwork⟩ := hu.work
  let A := account sound given n u.world (u.setting config ttl) u.job.type past
  have hcollects : A.Collects u.job.work := by
    rw [hwork]
    exact Account.collects_scopes fun project =>
      collects_of_workIn?_account hgiven hcollect project
  have h : Work.Ensures u.world (fun s' t' => A.BrokenOff (A.told t') s' t') u.job.work.run s
      (.start u.cancelled) fun _ => A.Settled := hcollects s _ ⟨hstart, .nil⟩
  have hsession : u.session s = ((u.job.work.run s).run u.world (.start u.cancelled)).2 := rfl
  rw [Turn.published, Turn.told, hsession, Turn.report]
  obtain ⟨left, t', hrun, front, ⟨rest, hrest⟩, hrecords, hhalted⟩ |
    ⟨result, s', t', hrun, hsettled⟩ := h.ends
  · rw [Job.report_of_brokenOff hrun, hrun]
    have htake : (t'.told u.world (Item.tell config.regions)).take t'.records.length = front := by
      have htold : t'.told u.world (Item.tell config.regions) = front ++ rest := hrest.symm
      rw [htold, ← hrecords.length_eq, List.take_left]
    dsimp only
    rw [htake]
    exact ⟨hrecords, .inr ⟨rfl, hhalted⟩⟩
  · rw [Job.report_of_result hrun, hrun]
    have htake : (t'.told u.world (Item.tell config.regions)).take t'.records.length =
        t'.told u.world (Item.tell config.regions) :=
      List.take_of_length_le (Nat.le_of_eq hsettled.records.length_eq)
    dsimp only
    rw [htake]
    refine ⟨hsettled.records, .inl ⟨?_, rfl, hsettled.state⟩⟩
    cases result <;> simp [Outcome.ofResult]

end Turn

/-! ### Runs -/

/-- What turns publish, with the times, from the caches that the first one finds. -/
def chronicleFrom (config : GcpConfig) : Caches → List Turn → List (Nat × Item)
  | _, [] => []
  | s, u :: us =>
    eventsAt u.now (u.published config s) ++ chronicleFrom config (u.report s).2.1 us

/-- What a run publishes, with the times. -/
def chronicle (config : GcpConfig) (capacity : Nat) (us : List Turn) : List (Nat × Item) :=
  chronicleFrom config (.withCapacity capacity) us

theorem chronicleFrom_concat (config : GcpConfig) (u : Turn) : ∀ (us : List Turn) (s : Caches),
    chronicleFrom config s (us ++ [u]) = chronicleFrom config s us ++
      eventsAt u.now (u.published config (us.foldl (fun s u => (u.report s).2.1) s))
  | [], s => by simp [chronicleFrom]
  | v :: us, s => by
    rw [List.cons_append, chronicleFrom, chronicleFrom, chronicleFrom_concat config u us,
      List.foldl_cons, List.append_assoc]

theorem chronicle_concat (config : GcpConfig) (capacity : Nat) (us : List Turn) (u : Turn) :
    chronicle config capacity (us ++ [u]) = chronicle config capacity us ++
      eventsAt u.now (u.published config (cachesAfter capacity us)) :=
  chronicleFrom_concat config u us _

/-- At no time of a run there are more links of networks, or of subnetworks, that have been
published less than `ttl` before than a cache has room for. -/
def Roomy (config : GcpConfig) (ttl capacity : Nat) (us : List Turn) : Prop :=
  ∀ front u, front ++ [u] <+: us → ∀ type ∈ [AssetType.gcpVpc, .gcpSubnet],
    Posting.Fits (max capacity 1) ttl u.now
      (postings type (chronicle config capacity (front ++ [u])))

theorem roomy_nil (config : GcpConfig) (ttl capacity : Nat) : Roomy config ttl capacity [] := by
  rintro front u ⟨rest, hrest⟩
  simp at hrest

theorem Roomy.concat {config : GcpConfig} {ttl capacity : Nat} {us : List Turn} {u : Turn}
    (h : Roomy config ttl capacity us)
    (hfits : ∀ type ∈ [AssetType.gcpVpc, .gcpSubnet], Posting.Fits (max capacity 1) ttl u.now
      (postings type (chronicle config capacity (us ++ [u])))) :
    Roomy config ttl capacity (us ++ [u]) := by
  intro front v hfront
  rcases List.prefix_concat_iff.1 hfront with hlast | hearlier
  · obtain ⟨rfl, hv⟩ := List.append_inj' hlast rfl
    obtain rfl := List.singleton_inj.1 hv
    exact hfits
  · exact h front v hearlier

/-- No job of a run breaks off. -/
def Unbroken (capacity : Nat) (us : List Turn) : Prop :=
  ∀ front u, front ++ [u] <+: us →
    (u.report (cachesAfter capacity front)).1.outcome ≠ .panic

/-- What the caches store has been published in the past. -/
structure Traced (ttl : Nat) (s : Caches) (events : List (Nat × Item)) : Prop where
  vpcs : Reflects ttl s.vpcs (postings .gcpVpc events)
  subnets : Reflects ttl s.subnets (postings .gcpSubnet events)

/-- The caches mirror what has been published in the past, and have had room for it. -/
structure InStep (n ttl now : Nat) (s : Caches) (events : List (Nat × Item)) : Prop where
  times : ∀ e ∈ events, e.1 ≤ now
  vpcsFit : Posting.Fits n ttl now (postings .gcpVpc events)
  subnetsFit : Posting.Fits n ttl now (postings .gcpSubnet events)
  vpcs : Mirrors n ttl now s.vpcs (postings .gcpVpc events)
  subnets : Mirrors n ttl now s.subnets (postings .gcpSubnet events)

section Steps

variable {config : GcpConfig} {n ttl now capacity : Nat} {s : Caches}
  {events : List (Nat × Item)} {us : List Turn} {u : Turn}

theorem InStep.later (h : InStep n ttl now s events) {time : Nat} (hle : now ≤ time) :
    InStep n ttl time s events where
  times := fun e he => Nat.le_trans (h.times e he) hle
  vpcsFit := h.vpcsFit.later hle
  subnetsFit := h.subnetsFit.later hle
  vpcs := h.vpcs.later hle
  subnets := h.subnets.later hle

/-- The grounds on which a job of a pass begins. -/
theorem InStep.grounds (h : InStep n ttl u.now s events) :
    Grounds n (u.setting config ttl) events where
  times := h.times
  vpcs := h.vpcsFit
  subnets := h.subnetsFit

/-- What the caches know when a job of a pass begins. -/
theorem recorded_nil (sound given : Prop) (htraced : sound → Traced ttl s events)
    (hstep : given → InStep n ttl u.now s events) (type : AssetType) :
    Recorded sound given n (u.setting config ttl) type events [] s where
  typed := fun _ hi => absurd hi List.not_mem_nil
  vpcs := by
    rw [eventsAt, List.map_nil, List.append_nil]
    exact ⟨fun hs => (htraced hs).vpcs, fun hg _ => (hstep hg).vpcs⟩
  subnets := by
    rw [eventsAt, List.map_nil, List.append_nil]
    exact ⟨fun hs => (htraced hs).subnets, fun hg _ => (hstep hg).subnets⟩

/-- A job publishes a record for each item, whatever the caches hold, unless it breaks off where the
clock cannot tell when an entry will expire. -/
theorem Turn.OfPass.published_ids (hu : u.OfPass config ttl) :
    List.Forall₂ (fun i r => r.id = i.id?) (u.published config s) (u.report s).1.records ∧
      ((u.report s).1.outcome ≠ .panic ∧ u.published config s = u.told config s ∨
        (u.report s).1.outcome = .panic ∧ Clock.tells u.now ttl = false) := by
  -- nothing is said of the parents, so nothing has to be known of the past
  have hstart : Recorded False False 0 (u.setting config ttl) u.job.type [] [] s :=
    recorded_nil False False False.elim False.elim u.job.type
  obtain ⟨hrecords, hends⟩ := hu.published False.elim hstart
  refine ⟨hrecords.imp fun i r hr => hr.id_eq, ?_⟩
  exact hends.imp (fun h => ⟨h.1, h.2.1⟩) fun h => ⟨h.1, h.2.untold⟩

/-- After a turn the caches still store nothing but what has been published. -/
theorem Traced.concat (h : Traced ttl s events) (hu : u.OfPass config ttl) :
    Traced ttl (u.report s).2.1 (events ++ eventsAt u.now (u.published config s)) := by
  obtain ⟨-, ⟨-, -, hrecorded⟩ | ⟨-, hhalted⟩⟩ := hu.published (n := 0) False.elim
    (recorded_nil True False (fun _ => h) False.elim u.job.type)
  · exact ⟨hrecorded.vpcs.reflects trivial, hrecorded.subnets.reflects trivial⟩
  · exact ⟨hhalted.vpcs trivial, hhalted.subnets trivial⟩

/-- A turn keeps the caches in step, if there is room for what it publishes and it does not break
off. -/
theorem InStep.concat (h : InStep n ttl u.now s events) (hu : u.OfPass config ttl)
    (hdone : (u.report s).1.outcome ≠ .panic)
    (hvpcs : Posting.Fits n ttl u.now
      (postings .gcpVpc (events ++ eventsAt u.now (u.published config s))))
    (hsubnets : Posting.Fits n ttl u.now
      (postings .gcpSubnet (events ++ eventsAt u.now (u.published config s)))) :
    InStep n ttl u.now (u.report s).2.1 (events ++ eventsAt u.now (u.published config s)) := by
  have hgrounds : Grounds n (u.setting config ttl) events := h.grounds
  have htimes := hgrounds.times_done (u.published config s)
  obtain ⟨-, ⟨-, -, hrecorded⟩ | ⟨hbreak, -⟩⟩ := hu.published (fun _ => hgrounds)
    (recorded_nil False True False.elim (fun _ => h) u.job.type)
  · exact ⟨htimes, hvpcs, hsubnets, hrecorded.vpcs.mirrors trivial hvpcs,
      hrecorded.subnets.mirrors trivial hsubnets⟩
  · exact absurd hbreak hdone

/-- In a run the caches never store anything but what has been published. -/
theorem traced_cachesAfter (hus : ∀ u ∈ us, u.OfPass config ttl) :
    Traced ttl (cachesAfter capacity us) (chronicle config capacity us) := by
  induction us using List.reverseRecOn with
  | nil => exact ⟨.withCapacity capacity ttl _, .withCapacity capacity ttl _⟩
  | append_singleton us u ih =>
    rw [chronicle_concat, cachesAfter_concat]
    exact (ih fun v hv => hus v (List.mem_append_left _ hv)).concat
      (hus u (List.mem_append_right _ (List.mem_singleton_self u)))

/-- As long as no job breaks off, the caches stay in step with the chronicle. -/
theorem inStep_cachesAfter (hus : ∀ u ∈ us, u.OfPass config ttl)
    (htimes : us.Pairwise fun u v => u.now ≤ v.now) (hroomy : Roomy config ttl capacity us)
    (hdone : Unbroken capacity us) :
    ∀ now, (∀ u ∈ us, u.now ≤ now) →
      InStep (max capacity 1) ttl now (cachesAfter capacity us) (chronicle config capacity us) := by
  induction us using List.reverseRecOn with
  | nil =>
    intro now _
    have hfits : Posting.Fits (max capacity 1) ttl now [] := Nat.zero_le _
    exact ⟨fun _ he => absurd he List.not_mem_nil, hfits, hfits, .withCapacity capacity ttl now,
      .withCapacity capacity ttl now⟩
  | append_singleton us u ih =>
    intro now hnow
    obtain ⟨htimes', -, hlast⟩ := List.pairwise_append.1 htimes
    have hlast' : ∀ v ∈ us, v.now ≤ u.now := fun v hv => hlast v hv u (List.mem_singleton_self u)
    have hstep := ih (fun v hv => hus v (List.mem_append_left _ hv)) htimes'
      (fun front v hfront => hroomy front v (hfront.trans (List.prefix_append _ _)))
      (fun front v hfront => hdone front v (hfront.trans (List.prefix_append _ _))) u.now hlast'
    have hfits := hroomy us u List.prefix_rfl
    rw [chronicle_concat] at hfits ⊢
    rw [cachesAfter_concat]
    have hu : u.OfPass config ttl := hus u (List.mem_append_right _ (List.mem_singleton_self u))
    exact (hstep.concat hu (hdone us u List.prefix_rfl) (hfits .gcpVpc (by simp))
      (hfits .gcpSubnet (by simp))).later
        (hnow u (List.mem_append_right _ (List.mem_singleton_self u)))

/-- No job breaks off as long as the clock can tell when entries will expire. -/
theorem unbroken_of_tells (hus : ∀ u ∈ us, u.OfPass config ttl)
    (htells : ∀ u ∈ us, Clock.tells u.now ttl = true) : Unbroken capacity us := by
  intro front u hfront hbreak
  have hmem : u ∈ us := hfront.subset (by simp)
  rcases (hus u hmem).published_ids.2 with ⟨hdone, -⟩ | ⟨-, huntold⟩
  · exact hdone hbreak
  · rw [htells u hmem] at huntold
    cases huntold

end Steps

/-! ### Periods -/

/-- How long the entries of the caches live: two periods, in milliseconds. -/
theorem ttl_eq {config : GcpConfig} {capacity : Nat} {g : GcpCollector}
    (hg : GcpCollector.ofConfig? config capacity = some g) :
    g.ttl = 2 * (config.base.period * 1000) := by
  obtain ⟨seconds, hseconds, rfl⟩ := Option.map_eq_some_iff.1 hg
  unfold BaseConfig.cacheTtl at hseconds
  split at hseconds
  · obtain rfl := Option.some.inj hseconds
    exact Nat.mul_assoc _ _ _
  · cases hseconds

/-- Whole periods after its last posting, a link has an edge if there is less than two of them. -/
theorem edge?_after_periods {ps : List Posting} {link : String} {p : Posting} {period k now : Nat}
    (hlast : Posting.last? ps link = some p) (hpos : 0 < period)
    (hnow : now = p.time + k * period) :
    Posting.edge? (2 * period) now ps link = if k < 2 then some ⟨.network, p.id⟩ else none := by
  obtain ⟨hfresh, hstale⟩ := Posting.edge?_of_last? hlast (2 * period) now
  split
  case isTrue hk =>
    refine hfresh ?_
    have : k * period < 2 * period := Nat.mul_lt_mul_of_pos_right hk hpos
    omega
  case isFalse hk =>
    refine hstale ?_
    have : 2 * period ≤ k * period := Nat.mul_le_mul_right period (Nat.le_of_not_lt hk)
    omega

/-- CORRECT: in a run of a collector a job publishes a record for each item that it is told of,
unless it breaks off, one after another. The parents of a record are never others than these: for
each of the item's links in turn, the network or subnetwork that has last been published under this
link, if that was less than two periods before. They are all of these if there has been room in the
caches and no job has broken off before, which none does as long as the clock can tell the time two
periods ahead. So with a whole number of periods between them, a link has an edge in the same pass
and in the next one, and no more in the one after that. -/
theorem parents_exact {config : GcpConfig} {capacity : Nat} {g : GcpCollector} {us : List Turn}
    {u : Turn} (hg : GcpCollector.ofConfig? config capacity = some g)
    (hus : ∀ v ∈ us ++ [u], v.OfPass config g.ttl)
    (htimes : (us ++ [u]).Pairwise fun v w => v.now ≤ w.now) :
    let period := config.base.period * 1000
    let events := chronicle config capacity us
    let parents (i : Item) :=
      i.parents (2 * period) u.now (postings .gcpVpc events) (postings .gcpSubnet events)
    let report := (u.report (cachesAfter capacity us)).1
    List.Forall₂
        (fun i r => r.id = i.id? ∧ r.parents.Sublist (parents i) ∧
          (Roomy config g.ttl capacity us → Unbroken capacity us → r.parents = parents i))
        (u.published config (cachesAfter capacity us)) report.records ∧
      (report.outcome ≠ .panic →
        u.published config (cachesAfter capacity us) = u.told config (cachesAfter capacity us)) ∧
      ((∀ v ∈ us, Clock.tells v.now g.ttl = true) → Unbroken capacity us) ∧
      ∀ type link p k, Posting.last? (postings type events) link = some p → 0 < period →
        u.now = p.time + k * period →
          Posting.edge? (2 * period) u.now (postings type events) link =
            if k < 2 then some ⟨.network, p.id⟩ else none := by
  intro period events parents report
  obtain ⟨htimes', -, hlast⟩ := List.pairwise_append.1 htimes
  have hlast' : ∀ v ∈ us, v.now ≤ u.now := fun v hv => hlast v hv u (List.mem_singleton_self u)
  have hpast : ∀ v ∈ us, v.OfPass config g.ttl := fun v hv => hus v (List.mem_append_left _ hv)
  have hstep : Roomy config g.ttl capacity us ∧ Unbroken capacity us →
      InStep (max capacity 1) g.ttl u.now (cachesAfter capacity us) events :=
    fun hgiven => inStep_cachesAfter hpast htimes' hgiven.1 hgiven.2 u.now hlast'
  have hu : u.OfPass config g.ttl := hus u (List.mem_append_right _ (List.mem_singleton_self u))
  obtain ⟨hrecords, hends⟩ := hu.published (fun hgiven => (hstep hgiven).grounds)
    (recorded_nil True _ (fun _ => traced_cachesAfter hpast) hstep u.job.type)
  have httl : (u.setting config g.ttl).ttl = 2 * period := ttl_eq hg
  refine ⟨?_, fun hdone => ?_, unbroken_of_tells hpast, fun type link p k hp => ?_⟩
  · refine hrecords.imp fun i r hr => ⟨hr.id_eq, ?_, fun hroomy hdone => ?_⟩
    · have hparents := hr.parents_sublist trivial
      rwa [httl] at hparents
    · have hparents := hr.parents_eq ⟨hroomy, hdone⟩
      rwa [httl] at hparents
  · rcases hends with ⟨-, htold, -⟩ | ⟨hbreak, -⟩
    · exact htold
    · exact absurd hbreak hdone
  · exact edge?_after_periods hp

/-! ### A network that is listed once -/

/-- A network, and a subnetwork in it. -/
def meshed : World Call Answer where
  answer := fun _ call => match call with
    | .listNetworks _ => .ok [⟨some "7", none, some "networks/7"⟩]
    | .listSubnetworks _ => .ok [⟨some "9", none, none, some "networks/7", none⟩]
    | .listInstances _ _ => .ok []
    | .listClusters _ => .ok []
  signal := fun _ _ => none

/-- A single project, with a number of seconds between passes. -/
def oneProject (period : Nat) : GcpConfig := ⟨⟨period, [], none⟩, ["p"], [], none⟩

/-- How long its entries live. -/
def twice (period : Nat) : Nat := 2 * period * 1000

/-- A turn at some time. -/
def meshedTurn (period : Nat) (type : AssetType) (collect : Setting → String → Try Nat)
    (now : Nat) : Turn where
  stamp := .epoch
  now := now
  job := ⟨type, "*",
    Work.scopes (collect (.ofConfig (oneProject period) (twice period) .epoch now)) ["p"]⟩
  world := meshed
  cancelled := false

theorem pass_oneProject (period now : Nat) :
    pass (oneProject period) (twice period) .epoch now =
      [(meshedTurn period .gceInstance instancesOf now).job,
        (meshedTurn period .gcpVpc vpcsOf now).job,
        (meshedTurn period .gcpSubnet subnetsOf now).job,
        (meshedTurn period .cluster clustersOf now).job] := rfl

/-- The job for networks, at some times. -/
def networksTurns (period : Nat) (times : List Nat) : List Turn :=
  times.map (meshedTurn period .gcpVpc vpcsOf)

/-- The job for subnetworks after these. -/
def subnetsReport (period : Nat) (times : List Nat) (now : Nat) : JobReport :=
  ((meshedTurn period .gcpSubnet subnetsOf now).report
    (cachesAfter 8 (networksTurns period times))).1

/-- The subnetwork. -/
def meshedSubnet : Item := .subnetwork ⟨some "9", none, none, some "networks/7", none⟩

/-- The parents that it should have. -/
def subnetParents (period : Nat) (times : List Nat) (now : Nat) : List Ean :=
  let events := chronicle (oneProject period) 8 (networksTurns period times)
  meshedSubnet.parents (2 * (period * 1000)) now (postings .gcpVpc events)
    (postings .gcpSubnet events)

theorem meshedTurn_ofPass (period now : Nat) :
    (meshedTurn period .gcpVpc vpcsOf now).OfPass (oneProject period) (twice period) ∧
      (meshedTurn period .gcpSubnet subnetsOf now).OfPass (oneProject period) (twice period) := by
  constructor
  · show _ ∈ pass (oneProject period) (twice period) .epoch now
    rw [pass_oneProject]
    exact List.mem_cons_of_mem _ List.mem_cons_self
  · show _ ∈ pass (oneProject period) (twice period) .epoch now
    rw [pass_oneProject]
    exact List.mem_cons_of_mem _ (List.mem_cons_of_mem _ List.mem_cons_self)

/-- The collector that has this project. -/
theorem collector_oneProject {period : Nat} (hperiod : 2 * period < Nat.pow 2 64) :
    GcpCollector.ofConfig? (oneProject period) 8 =
      some ⟨oneProject period, twice period, .withCapacity 8⟩ := by
  rw [GcpCollector.ofConfig?, BaseConfig.cacheTtl, oneProject, if_pos hperiod]
  rfl

theorem networksTurns_ofPass (period : Nat) (times : List Nat) (now : Nat) :
    ∀ v ∈ networksTurns period times ++ [meshedTurn period .gcpSubnet subnetsOf now],
      v.OfPass (oneProject period) (twice period) := by
  intro v hv
  rcases List.mem_append.1 hv with hv | hv
  · obtain ⟨time, -, rfl⟩ := List.mem_map.1 hv
    exact (meshedTurn_ofPass period time).1
  · obtain rfl := List.mem_singleton.1 hv
    exact (meshedTurn_ofPass period now).2

theorem networksTurns_pairwise (period : Nat) {times : List Nat} {now : Nat}
    (h : (times ++ [now]).Pairwise (· ≤ ·)) :
    (networksTurns period times ++ [meshedTurn period .gcpSubnet subnetsOf now]).Pairwise
      fun v w => v.now ≤ w.now := by
  have hnow : (networksTurns period times ++ [meshedTurn period .gcpSubnet subnetsOf now]).map
      Turn.now = times ++ [now] := by
    simp [networksTurns, meshedTurn, Function.comp_def]
  rw [← hnow] at h
  exact List.pairwise_map.1 h

/-- The longest period of which two can be told at the start. -/
def longPeriod : Nat := Nat.pow 2 62 - 1

theorem roomy_networksTurns :
    Roomy (oneProject 600) (twice 600) 8 (networksTurns 600 [0]) ∧
      Roomy (oneProject longPeriod) (twice longPeriod) 8 (networksTurns longPeriod [0, 2000]) := by
  refine ⟨(roomy_nil _ _ _).concat ?_, ((roomy_nil _ _ _).concat ?_).concat ?_⟩
  all_goals decide +kernel

/-- One period later the subnetwork has its network for a parent, and two periods later none. With a
period that is too long, the network is lost when it is listed once more, two seconds later. -/
theorem parent_lost_brokenOff :
    (subnetsReport 600 [0] 600000).records.map Record.parents = [[⟨.network, "7"⟩]] ∧
      (subnetsReport 600 [0] 1200000).records.map Record.parents = [[]] ∧
      subnetParents longPeriod [0, 2000] 2000 = [⟨.network, "7"⟩] ∧
      (subnetsReport longPeriod [0, 2000] 2000).records.map Record.parents = [[]] ∧
      ¬ Unbroken 8 (networksTurns longPeriod [0, 2000]) := by
  have hparents (period : Nat) (times : List Nat) (now : Nat) (hperiod : 2 * period < Nat.pow 2 64)
      (htimes : (times ++ [now]).Pairwise (· ≤ ·))
      (htold : (subnetsReport period times now).outcome ≠ .panic ∧
        (meshedTurn period .gcpSubnet subnetsOf now).told (oneProject period)
          (cachesAfter 8 (networksTurns period times)) = [meshedSubnet])
      (hroomy : Roomy (oneProject period) (twice period) 8 (networksTurns period times)) :
      ((∀ time ∈ times, Clock.tells time (twice period) = true) →
          Unbroken 8 (networksTurns period times)) ∧
        (Unbroken 8 (networksTurns period times) →
          (subnetsReport period times now).records.map Record.parents =
            [subnetParents period times now]) := by
    obtain ⟨hrecords, hall, htells, -⟩ := parents_exact (collector_oneProject hperiod)
      (networksTurns_ofPass period times now) (networksTurns_pairwise period htimes)
    rw [hall htold.1, htold.2] at hrecords
    refine ⟨fun h => htells fun v hv => ?_, fun hdone => ?_⟩
    · obtain ⟨time, htime, rfl⟩ := List.mem_map.1 hv
      exact h time htime
    · obtain ⟨r, rs, ⟨-, -, hr⟩, hrs, he⟩ := List.forall₂_cons_left_iff.1 hrecords
      obtain rfl := List.forall₂_nil_left_iff.1 hrs
      rw [subnetsReport, he, List.map_singleton, hr hroomy hdone]
      rfl
  obtain ⟨hroomy, hroomy'⟩ := roomy_networksTurns
  have hnext := hparents 600 [0] 600000 (by decide) (by decide) (by decide +kernel) hroomy
  have hlater := hparents 600 [0] 1200000 (by decide) (by decide) (by decide +kernel) hroomy
  have hlong := hparents longPeriod [0, 2000] 2000 (by decide +kernel) (by decide)
    (by decide +kernel) hroomy'
  have hdone : Unbroken 8 (networksTurns 600 [0]) := hnext.1 (by decide)
  have hexact : subnetParents longPeriod [0, 2000] 2000 = [⟨.network, "7"⟩] := by decide +kernel
  have hlost : (subnetsReport longPeriod [0, 2000] 2000).records.map Record.parents = [[]] := by
    decide +kernel
  refine ⟨?_, ?_, hexact, hlost, fun hdone => ?_⟩
  · rw [hnext.2 hdone]
    decide +kernel
  · rw [hlater.2 hdone]
    decide +kernel
  · have hrecords := hlong.2 hdone
    rw [hexact, hlost] at hrecords
    cases hrecords

end CloudInventory.Gcp
