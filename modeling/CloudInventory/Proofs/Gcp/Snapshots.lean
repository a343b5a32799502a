import CloudInventory.Collector
import CloudInventory.Proofs.Gcp.Machines
import Mathlib.Data.List.Infix

/-!
Machines in snapshots. A snapshot answers each call as its files say, whatever has been called
before. A filter for zones asks for a text that occurs in the zone, and the region of a zone always
does. The job for machines, over a snapshot and with room for all of them, leaves an empty cache
with every machine that has an id and a link of its own.
-/

namespace CloudInventory

/-! ### Zones and filters -/

namespace Snapshot

theorem filteredRegion?_zoneFilter (region : String) :
    filteredRegion? (Gcp.zoneFilter region) = some region := by
  rw [filteredRegion?, Gcp.zoneFilter, String.append_assoc, Text.dropStart_append,
    Option.bind_some, Text.dropEnd_append]

theorem passesFilter_zoneFilter (region : String) (z : Gcp.ZoneInstances) :
    passesFilter (some (Gcp.zoneFilter region)) z = Text.occursIn region z.zone := by
  rw [passesFilter, Option.bind_some, filteredRegion?_zoneFilter]

/-- A filter picks zones from the listing without one. -/
theorem gcp_listInstances {files : Snapshot} {project : String} {zones : List Gcp.ZoneInstances}
    (h : files.gcp (.listInstances project none) = .ok zones) (filter : Option String) :
    files.gcp (.listInstances project filter) = .ok (zones.filter (passesFilter filter)) := by
  rw [gcp] at h ⊢
  cases hfile : files.gcpListing "instances.aggregatedList" project "instances.json"
      (Term.list? Gcp.ZoneInstances.decode?) with
  | error e =>
    rw [hfile] at h
    cases h
  | ok all =>
    rw [hfile] at h
    obtain rfl : all.filter (passesFilter none) = zones := Except.ok.inj h
    have hall : all.filter (passesFilter none) = all := List.filter_eq_self.2 fun _ _ => rfl
    rw [hall]
    rfl

end Snapshot

namespace Gcp

theorem isInfix_resourceName (address : String) :
    (resourceName address).toList <:+: address.toList := by
  unfold resourceName Text.cutLast
  cases hcut : Text.cutLastOf '/' address.toList with
  | none => exact List.infix_rfl
  | some p =>
    obtain ⟨front, name⟩ := p
    obtain ⟨hsplit, -⟩ := Text.eq_of_cutLastOf hcut
    refine ⟨front ++ ['/'], [], ?_⟩
    simp [hsplit]

theorem isInfix_regionOfZone (zone : String) : (regionOfZone zone).toList <:+: zone.toList := by
  refine List.IsInfix.trans ?_ (isInfix_resourceName zone)
  unfold regionOfZone Text.cutLast
  cases hcut : Text.cutLastOf '-' (resourceName zone).toList with
  | none => exact List.nil_infix
  | some p =>
    obtain ⟨region, rest⟩ := p
    obtain ⟨hsplit, -⟩ := Text.eq_of_cutLastOf hcut
    refine ⟨[], '-' :: rest, ?_⟩
    simp [hsplit]

/-- The region of a zone occurs in its text. -/
theorem occursIn_regionOfZone (zone : String) : Text.occursIn (regionOfZone zone) zone :=
  Text.occursIn_iff.2 (isInfix_regionOfZone zone)

/-! ### Snapshots -/

/-- The answers of a snapshot, with nothing to disturb them. -/
def calmWorld (files : Snapshot) : World Call Answer :=
  Disturbance.none.world .gcp Call.words files.gcp

theorem ask_calmWorld (files : Snapshot) {t : Session Call} (hgo : t.cancelled = false) (c : Call) :
    t.ask (calmWorld files) c = (files.gcp c, { t with calls := t.calls ++ [c] }) :=
  Session.ask_of_calm (fun _ _ => rfl) hgo

/-- The machines of all zones. -/
def machinesOf (zones : List ZoneInstances) : List Instance :=
  zones.flatMap ZoneInstances.instances

/-- The machines of a listing can all be stored at once: each has an id and a link of its own, and
they are not too many. -/
structure Storable (capacity : Nat) (zones : List ZoneInstances) : Prop where
  ids : ∀ i ∈ machinesOf zones, ∃ id, i.id.bind Text.nonEmpty = some id
  links : ∀ i ∈ machinesOf zones, ∃ link, i.selfLink.bind Text.nonEmpty = some link
  distinct : ((machinesOf zones).map Instance.selfLink).Nodup
  fits : (machinesOf zones).length ≤ capacity

/-- What a cache is to hold of the machines of a project. -/
def heldOf (g : Setting) (project : String) (zones : List ZoneInstances) :
    List (Held InstanceSummary) :=
  zones.flatMap fun z => z.instances.filterMap (held? g project z.zone)

theorem heldOf_concat (g : Setting) (project : String) (zones : List ZoneInstances)
    (z : ZoneInstances) :
    heldOf g project (zones ++ [z]) =
      heldOf g project zones ++ z.instances.filterMap (held? g project z.zone) := by
  simp [heldOf]

theorem filterMap_held?_concat (g : Setting) (project zone : String) (instances : List Instance)
    (i : Instance) :
    (instances ++ [i]).filterMap (held? g project zone) =
      instances.filterMap (held? g project zone) ++ (held? g project zone i).toList := by
  rw [List.filterMap_append]
  cases hheld : held? g project zone i <;> simp [hheld]

section Storing

variable {g : Setting} {project : String} {zones : List ZoneInstances}

theorem mem_heldOf {x : Held InstanceSummary} :
    x ∈ heldOf g project zones ↔
      ∃ z ∈ zones, ∃ i ∈ z.instances, held? g project z.zone i = some x := by
  simp [heldOf]

theorem held?_link {zone : String} {i : Instance} {x : Held InstanceSummary}
    (h : held? g project zone i = some x) : i.selfLink = some x.link := by
  obtain ⟨v, -, hheld⟩ := Option.bind_eq_some_iff.1 h
  obtain ⟨link, hlink, rfl⟩ := Option.map_eq_some_iff.1 hheld
  exact Text.eq_of_bind_nonEmpty hlink

/-- What is held in a zone has links of machines there, in their order. -/
theorem links_filterMap_sublist (g : Setting) (project zone : String) : ∀ instances : List Instance,
    ((instances.filterMap (held? g project zone)).map fun x => some x.link).Sublist
      (instances.map Instance.selfLink)
  | [] => List.Sublist.refl _
  | i :: instances => by
    have ih := links_filterMap_sublist g project zone instances
    cases hheld : held? g project zone i with
    | none =>
      rw [List.filterMap_cons_none hheld, List.map_cons]
      exact ih.cons _
    | some x =>
      rw [List.filterMap_cons_some hheld, List.map_cons, List.map_cons, held?_link hheld]
      exact ih.cons_cons _

theorem links_heldOf_sublist (g : Setting) (project : String) : ∀ zones : List ZoneInstances,
    ((heldOf g project zones).map fun x => some x.link).Sublist
      ((machinesOf zones).map Instance.selfLink)
  | [] => List.Sublist.refl _
  | z :: zones => by
    rw [heldOf, machinesOf, List.flatMap_cons, List.flatMap_cons, List.map_append, List.map_append]
    exact (links_filterMap_sublist g project z.zone z.instances).append
      (links_heldOf_sublist g project zones)

namespace Storable

variable {capacity : Nat}

theorem nodup_links (h : Storable capacity zones) :
    ((heldOf g project zones).map Held.link).Nodup := by
  have hsome := h.distinct.sublist (links_heldOf_sublist g project zones)
  have hmap : (heldOf g project zones).map (fun x => some x.link) =
      ((heldOf g project zones).map Held.link).map some := by
    rw [List.map_map]
    rfl
  rw [hmap] at hsome
  exact hsome.of_map _

theorem length_le (h : Storable capacity zones) : (heldOf g project zones).length ≤ capacity := by
  have hlength := (links_heldOf_sublist g project zones).length_le
  rw [List.length_map, List.length_map] at hlength
  exact Nat.le_trans hlength h.fits

end Storable

/-- With room for all and links of their own, a machine comes after those that are held. -/
theorem holds_next {n : Nat} {c : Cache InstanceSummary} {hs all : List (Held InstanceSummary)}
    {zone : String} {i : Instance} (hc : c.Holds n hs)
    (htells : ∀ x, held? g project zone i = some x → Clock.tells g.now g.ttl = true)
    (hfront : hs ++ (held? g project zone i).toList <+: all)
    (hnodup : (all.map Held.link).Nodup) (hfits : all.length ≤ n) :
    (stored g project zone i c).Holds n (hs ++ (held? g project zone i).toList) := by
  cases hheld : held? g project zone i with
  | none =>
    rw [stored, hheld, Option.toList_none, List.append_nil]
    exact hc
  | some x =>
    rw [hheld] at hfront
    refine holds_stored hc (htells x hheld) hheld (fun hmem => ?_) ?_
    · have hnodup' := hnodup.sublist (hfront.sublist.map Held.link)
      rw [List.map_append, List.nodup_append] at hnodup'
      exact hnodup'.2.2 _ hmem _ (List.mem_singleton_self _) rfl
    · have hlength := hfront.length_le
      rw [List.length_append, Option.toList_some, List.length_singleton] at hlength
      omega

end Storing

/-! ### The job for machines -/

section Jobs

variable {g : Setting} {project : String} {zones : List ZoneInstances} {files : Snapshot}
  {capacity n : Nat} {s : Caches} {t : Session Call}

/-- While machines are stored: the cache holds `hs`, which is nothing as long as the clock cannot
tell when entries will expire. -/
structure Filling (g : Setting) (n : Nat) (hs : List (Held InstanceSummary)) (s : Caches) :
    Prop where
  holds : s.instances.Holds n hs
  tells : hs ≠ [] → Clock.tells g.now g.ttl = true

/-- One more machine is stored, or the job breaks off at the first one. -/
theorem Filling.publishInstance {w : World Call Answer} {zone : String} {i : Instance}
    {hs all : List (Held InstanceSummary)} (h : Filling g n hs s)
    (hfront : hs ++ (held? g project zone i).toList <+: all)
    (hnodup : (all.map Held.link).Nodup) (hfits : all.length ≤ n) :
    Work.Ensures w (fun s' _ => AllStored (fun _ => False) s'.instances)
      (publishInstance g project zone i) s t fun _ s' _ =>
        Filling g n (hs ++ (held? g project zone i).toList) s' := by
  refine ensures_publishInstance_stored (fun htells k subnets records warnings => ?_)
    fun hbreak => ?_
  · refine ⟨holds_next h.holds htells hfront hnodup hfits, fun hsome => ?_⟩
    cases hheld : held? g project zone i with
    | none => exact h.tells (by simpa [hheld] using hsome)
    | some x => exact htells x hheld
  · have hnone : hs = [] := by
      by_contra hsome
      rw [h.tells hsome] at hbreak
      cases hbreak
    exact (allStored_of_holds_nil (hnone ▸ h.holds)).of_partOf (partOf_stored hbreak _)

/-- Over a snapshot the job for machines fills an empty cache with all of them, unless it breaks
off; then it has stored none. -/
theorem ensures_instancesOf_calm (hregions : g.regions = [])
    (hzones : files.gcp (.listInstances project none) = .ok zones)
    (hstorable : Storable capacity zones) (hn : capacity ≤ n) (hgo : t.cancelled = false)
    (hempty : s.instances.Holds n []) :
    Work.Ensures (calmWorld files) (fun s' _ => AllStored (fun _ => False) s'.instances)
      (instancesOf g project).run s t fun _ s' _ =>
        s'.instances.Holds n (heldOf g project zones) := by
  have hask := ask_calmWorld files hgo (.listInstances project none)
  refine Work.ensures_askTotal (fun e he => ?_) fun zones' hzones' => ?_
  · rw [hask, hzones] at he
    cases he
  rw [hask, hzones] at hzones'
  obtain rfl := Except.ok.inj hzones'
  have hwanted : zones.filter (fun z => wantsZone g.regions z.zone) = zones :=
    List.filter_eq_self.2 fun z _ => by simp [wantsZone, hregions]
  rw [hwanted]
  refine (Work.ensures_total (fun done s' _ => Filling g n (heldOf g project done) s') ?_
    ⟨hempty, fun h => absurd rfl h⟩).mono fun _ _ _ h => h.holds
  rintro done z hz s₁ t₁ hfilling
  have hfront : heldOf g project (done ++ [z]) <+: heldOf g project zones := hz.flatMap _
  rw [heldOf_concat] at hfront ⊢
  refine Work.ensures_total (fun done' s' _ =>
    Filling g n (heldOf g project done ++ done'.filterMap (held? g project z.zone)) s') ?_
    (by simpa using hfilling)
  rintro done' i hi s₂ t₂ hfilling'
  have hzone : (done' ++ [i]).filterMap (held? g project z.zone) <+:
      z.instances.filterMap (held? g project z.zone) := hi.filterMap _
  rw [filterMap_held?_concat] at hzone ⊢
  have hwhole := ((List.prefix_append_right_inj _).2 hzone).trans hfront
  rw [← List.append_assoc] at hwhole ⊢
  exact hfilling'.publishInstance hwhole hstorable.nodup_links
    (Nat.le_trans hstorable.length_le hn)

end Jobs

end Gcp

end CloudInventory
