import CloudInventory.Proofs.Cache.Seen
import CloudInventory.Proofs.Gcp.Keeping
import CloudInventory.Proofs.Program.Readers

/-!
What each job reads of the caches. A job never reads a cache that it fills: networks are published
without a look at any, subnetworks with a look at the networks, machines with one at the
subnetworks, and clusters with one at the networks and the machines. Looking things up touches what
is found, and drops what has expired, but what can be seen stays as it was. Keeping something breaks
a job off only if the clock cannot tell when it will expire.
-/

namespace CloudInventory.Gcp

/-! ### Steps -/

section Steps

variable {τ : Type} {view : Caches → τ} {g : Setting}

/-- The clock cannot tell when entries will expire that are kept now. -/
def Setting.Untold (g : Setting) : Prop := Clock.tells g.now g.ttl = false

/-- Keeping does not show in a view of other caches. -/
theorem readsOnly_keep {α : Type} (get : Caches → Cache α) {set : Caches → Cache α → Caches}
    (hset : ∀ s c, view (set s c) = view s) (link : Option String) (value : α) :
    Work.ReadsOnly g.Untold view (keep g get set link value) := by
  let kept (s : Caches) : Caches := set s (g.keeping link value (get s))
  have hmodify : Work.ReadsOnly g.Untold view (modify kept : Step Unit) :=
    Work.readsOnly_modify fun s => hset s _
  rcases keep_cases g get set link value with
    ⟨-, hkeep⟩ | ⟨l, -, -, hkeep⟩ | ⟨l, -, htells, hkeep⟩
  · exact hkeep ▸ Work.readsOnly_pure ()
  · exact hkeep ▸ hmodify
  · exact hkeep ▸ hmodify.bind fun _ => Work.readsOnly_crash htells

/-- A view tells what can be seen of the networks, and of them no more. -/
structure SeesVpcs (g : Setting) (view : Caches → τ) : Prop where
  tells : ∀ s s', view s = view s' → s.vpcs.seen g.now = s'.vpcs.seen g.now
  keeps : ∀ s vpcs, vpcs.seen g.now = s.vpcs.seen g.now → view { s with vpcs } = view s

theorem readsOnly_resolveVpc? (hview : SeesVpcs g view) (link : Option String) :
    Work.ReadsOnly g.Untold view (resolveVpc? g link) := by
  cases link with
  | none => exact Work.readsOnly_pure []
  | some link =>
    refine Work.ReadsOnly.bind (Work.readsOnly_modifyGet (fun s s' hsame => ?_) fun s => ?_)
      fun ean => Work.readsOnly_pure ean.toList
    · show (s.vpcs.resolve link .network g.now).1 = (s'.vpcs.resolve link .network g.now).1
      rw [(Cache.resolve_seen s.vpcs link .network g.now).1,
        (Cache.resolve_seen s'.vpcs link .network g.now).1, hview.tells s s' hsame]
    · exact hview.keeps s _ (Cache.resolve_seen s.vpcs link .network g.now).2

end Steps

/-! ### Networks, subnetworks and machines -/

section Items

variable (g : Setting) (project : String)

theorem readsOnly_publishVpc (n : Network) :
    Work.ReadsOnly g.Untold (fun _ : Caches => ()) (publishVpc g project n) := by
  unfold publishVpc
  split
  case h_1 => exact Work.readsOnly_skip _ _
  case h_2 id hid =>
    refine (readsOnly_keep _ ?_ n.selfLink _).bind fun _ => ?_
    · exact fun _ _ => rfl
    exact (Work.readsOnly_emit _ _ _ _).bind fun _ => Work.readsOnly_pure 1

theorem readsOnly_publishSubnet (n : Subnetwork) :
    Work.ReadsOnly g.Untold (fun s : Caches => s.vpcs.seen g.now) (publishSubnet g project n) := by
  unfold publishSubnet
  split
  case h_1 => exact Work.readsOnly_skip _ _
  case h_2 id hid =>
    refine (readsOnly_keep _ ?_ n.selfLink _).bind fun _ => ?_
    · exact fun _ _ => rfl
    refine (readsOnly_resolveVpc? ⟨fun _ _ h => h, fun _ _ h => h⟩ n.network).bind fun parents => ?_
    exact (Work.readsOnly_emit _ _ _ _).bind fun _ => Work.readsOnly_pure 1

theorem readsOnly_publishInstance (zone : String) (i : Instance) :
    Work.ReadsOnly g.Untold (fun s : Caches => s.subnets.seen g.now)
      (publishInstance g project zone i) := by
  unfold publishInstance
  split
  case h_1 => exact Work.readsOnly_skip _ _
  case h_2 v hv =>
    refine (readsOnly_keep _ ?_ i.selfLink _).bind fun _ => ?_
    · exact fun _ _ => rfl
    refine Work.ReadsOnly.bind (Work.readsOnly_modifyGet (fun s s' hsame => ?_) fun s => ?_)
      fun parents => (Work.readsOnly_emit _ _ _ _).bind fun _ => Work.readsOnly_pure 1
    · let links := i.networkInterfaces.filterMap NetworkInterface.subnetwork
      show (s.subnets.resolveAll .network g.now links).1 =
        (s'.subnets.resolveAll .network g.now links).1
      rw [(Cache.resolveAll_seen .network g.now links s.subnets).1,
        (Cache.resolveAll_seen .network g.now links s'.subnets).1, hsame]
    · exact (Cache.resolveAll_seen .network g.now _ s.subnets).2

end Items

/-! ### Clusters -/

/-- Caches of machines in which the same can be seen answer the same. -/
theorem cachedIds_congr {c d : Cache InstanceSummary} {now : Nat} (h : c.seen now = d.seen now)
    (region : String) (pools : List String) :
    (cachedIds c region pools now).1 = (cachedIds d region pools now).1 := by
  have hlisting := Cache.listing_congr h
  unfold cachedIds
  by_cases hpools : pools = []
  · rw [if_pos hpools, if_pos hpools]
  · rw [if_neg hpools, if_neg hpools]
    generalize c.listing now = left at hlisting ⊢
    generalize d.listing now = right at hlisting ⊢
    obtain ⟨known, c'⟩ := left
    obtain ⟨_, d'⟩ := right
    obtain rfl : known = _ := hlisting
    by_cases hknown : known = [] <;> simp [hknown]

theorem seen_cachedIds (c : Cache InstanceSummary) (region : String) (pools : List String)
    (now : Nat) : (cachedIds c region pools now).2.seen now = c.seen now := by
  have hlisting := Cache.seen_listing c now
  unfold cachedIds
  by_cases hpools : pools = []
  · rw [if_pos hpools]
  · rw [if_neg hpools]
    generalize c.listing now = found at hlisting ⊢
    obtain ⟨known, c'⟩ := found
    by_cases hknown : known = [] <;> simpa [hknown] using hlisting

section Clusters

variable (g : Setting) (project : String)

/-- What clusters are published with a look at. -/
def clusterView (s : Caches) :
    (String → Option (VpcSummary × Nat)) × (String → Option (InstanceSummary × Nat)) :=
  (s.vpcs.seen g.now, s.instances.seen g.now)

theorem readsOnly_clusterChildren (region : String) (c : GkeCluster) :
    Work.ReadsOnly g.Untold (clusterView g) (clusterChildren g project region c) := by
  have hids : Work.ReadsOnly g.Untold (clusterView g) (clusterIds g project region c).run := by
    refine (Work.readsOnly_modifyGet (fun s s' hsame => ?_) fun s => ?_).lift.attempt
      fun known => ?_
    · exact cachedIds_congr (Prod.mk.inj hsame).2 region c.poolNames
    · exact Prod.ext rfl (seen_cachedIds s.instances region c.poolNames g.now)
    · cases known with
      | some ids => exact Work.readsOnly_pure _
      | none => exact (Work.readsOnly_ask _).attempt fun zones => Work.readsOnly_pure _
  refine hids.bind fun found => ?_
  cases found with
  | ok ids => exact Work.readsOnly_pure _
  | error cause => exact (Work.readsOnly_warn _).bind fun _ => Work.readsOnly_pure []

theorem readsOnly_publishCluster (c : GkeCluster) :
    Work.ReadsOnly g.Untold (clusterView g) (publishCluster g project c) := by
  have hview : SeesVpcs g (clusterView g) :=
    ⟨fun s s' hsame => (Prod.mk.inj hsame).1, fun s vpcs hvpcs => Prod.ext hvpcs rfl⟩
  unfold publishCluster
  split
  case h_1 => exact Work.readsOnly_skip _ _
  case h_2 id hid =>
    refine (readsOnly_resolveVpc? hview c.networkLink?).bind fun parents => ?_
    refine (readsOnly_clusterChildren g project (c.location.getD "") c).bind fun children => ?_
    exact (Work.readsOnly_emit _ _ _ _).bind fun _ => Work.readsOnly_pure 1

end Clusters

/-! ### Jobs -/

/-- The work of each type reads its caches through a view. -/
theorem exists_readsOnly {g : Setting} {type : AssetType} {collect : String → Try Nat}
    (h : workIn? g type = some collect) : ∃ (τ : Type) (view : Caches → τ),
      ∀ project, Work.ReadsOnly g.Untold view (collect project).run := by
  unfold workIn? at h
  split at h
  case h_1 =>
    obtain rfl := Option.some.inj h
    exact ⟨_, fun s => s.subnets.seen g.now, fun project => Work.readsOnly_askTotal fun z =>
      Work.readsOnly_total (readsOnly_publishInstance g project z.zone) z.instances⟩
  case h_2 =>
    obtain rfl := Option.some.inj h
    exact ⟨_, fun _ => (), fun project => Work.readsOnly_askTotal (readsOnly_publishVpc g project)⟩
  case h_3 =>
    obtain rfl := Option.some.inj h
    exact ⟨_, fun s => s.vpcs.seen g.now, fun project =>
      Work.readsOnly_askTotal (readsOnly_publishSubnet g project)⟩
  case h_4 =>
    obtain rfl := Option.some.inj h
    exact ⟨_, clusterView g, fun project => Work.readsOnly_totalAttempt (fun parent =>
      Work.readsOnly_askTotal (readsOnly_publishCluster g project)) _⟩
  case h_5 => cases h

end CloudInventory.Gcp
