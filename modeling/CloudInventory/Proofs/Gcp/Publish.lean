import CloudInventory.Proofs.Gcp.Keeping
import CloudInventory.Proofs.Program.Ensures

/-!
What it comes to when an item is published. A network, a subnetwork or a machine without an id is
passed over. One with an id is first kept in its cache under its link, if it has one; if the clock
cannot tell when the entry will expire, the job breaks off there. Then its own links are looked up,
which gives the parents, and one record goes out.
-/

namespace CloudInventory.Gcp

/-! ### Records -/

/-- The record of a network with an id. -/
def vpcRecord (g : Setting) (project : String) (n : Network) (id : String) : Record :=
  .compose g.emitter.stamp (Patch.typed .gcpVpc id g.emitter.space ++
    ([.provider .gcp, .account project] ++ Patch.maybeName (some (n.name.getD ""))))

/-- The name of the region that a subnetwork is in, or else an empty text. -/
def Subnetwork.regionName (s : Subnetwork) : String := (s.region.map resourceName).getD ""

/-- The record of a subnetwork with an id. -/
def subnetRecord (g : Setting) (project : String) (s : Subnetwork) (id : String)
    (parents : List Ean) : Record :=
  .compose g.emitter.stamp (Patch.typed .gcpSubnet id g.emitter.space ++
    ([.provider .gcp, .account project, .region s.regionName] ++
      Patch.maybeName (some (s.name.getD "")) ++ [.parents parents]))

/-- The record of a machine of which something is known. -/
def machineRecord (g : Setting) (project : String) (i : Instance) (v : InstanceSummary)
    (parents : List Ean) : Record :=
  .compose g.emitter.stamp (Patch.typed .gceInstance v.id g.emitter.space ++
    ([.provider .gcp, .region v.region, .account project] ++ Patch.maybeName i.name ++
      [.parents parents, .labels i.labels] ++ statePatch i.status))

theorem statePatch_cases (state : Option String) :
    statePatch state = [] ∨ ∃ j, statePatch state = [.metadata j] := by
  cases state with
  | none => exact .inl rfl
  | some s => exact .inr ⟨_, rfl⟩

theorem vpcRecord_attributes (g : Setting) (project : String) (n : Network) (id : String) :
    (vpcRecord g project n id).id = some id ∧ (vpcRecord g project n id).parents = [] := by
  rcases Patch.maybeName_cases (some (n.name.getD "")) with h | ⟨s, h⟩ <;>
    simp [vpcRecord, Record.compose, h, Patch.typed, Patch.apply, Record.blank]

theorem subnetRecord_attributes (g : Setting) (project : String) (n : Subnetwork) (id : String)
    (parents : List Ean) :
    (subnetRecord g project n id parents).id = some id ∧
      (subnetRecord g project n id parents).parents = parents := by
  rcases Patch.maybeName_cases (some (n.name.getD "")) with h | ⟨s, h⟩ <;>
    simp [subnetRecord, Record.compose, h, Patch.typed, Patch.apply]

theorem machineRecord_attributes (g : Setting) (project : String) (i : Instance)
    (v : InstanceSummary) (parents : List Ean) :
    (machineRecord g project i v parents).id = some v.id ∧
      (machineRecord g project i v parents).parents = parents := by
  rcases Patch.maybeName_cases i.name with h | ⟨s, h⟩ <;>
    rcases statePatch_cases i.status with h' | ⟨j, h'⟩ <;>
      simp [machineRecord, Record.compose, h, h', Patch.typed, Patch.apply]

theorem subnetRecord_region (g : Setting) (project : String) (n : Subnetwork) (id : String)
    (parents : List Ean) :
    (subnetRecord g project n id parents).region = some n.regionName := by
  rcases Patch.maybeName_cases (some (n.name.getD "")) with h | ⟨s, h⟩ <;>
    simp [subnetRecord, Record.compose, h, Patch.typed, Patch.apply]

theorem machineRecord_region (g : Setting) (project : String) (i : Instance) (v : InstanceSummary)
    (parents : List Ean) : (machineRecord g project i v parents).region = some v.region := by
  rcases Patch.maybeName_cases i.name with h | ⟨s, h⟩ <;>
    rcases statePatch_cases i.status with h' | ⟨j, h'⟩ <;>
      simp [machineRecord, Record.compose, h, h', Patch.typed, Patch.apply]

/-! ### Links -/

/-- The links of a machine's interfaces, in their order. -/
def Instance.subnetLinks (i : Instance) : List String :=
  i.networkInterfaces.filterMap NetworkInterface.subnetwork

namespace Setting

/-- Keeping something under a link, if there is one, does not break a job off. -/
def CanKeep (g : Setting) (link : Option String) : Prop :=
  link.bind Text.nonEmpty = none ∨ Clock.tells g.now g.ttl = true

variable {α : Type}

/-- The names of the networks behind links. -/
def found [HasId α] (g : Setting) (c : Cache α) (links : List String) : List Ean :=
  (c.resolveAll .network g.now links).1

/-- A cache in which links have been looked up. -/
def searched [HasId α] (g : Setting) (c : Cache α) (links : List String) : Cache α :=
  (c.resolveAll .network g.now links).2

end Setting

section Steps

variable {w : World Call Answer} {R : Caches → Session Call → Prop} {g : Setting} {s : Caches}
  {t : Session Call}

/-- Keeping something in one of the caches, of which `get` and `set` are the access to it. The
cache is changed in the same way whether the job goes on or breaks off. -/
theorem ensures_keep {α : Type} {get : Caches → Cache α} {set : Caches → Cache α → Caches}
    (hset : set s (get s) = s) {link : Option String} {v : α}
    {Q : Unit → Caches → Session Call → Prop}
    (h : g.CanKeep link → Q () (set s (g.keeping link v (get s))) t)
    (hbreak : ¬ g.CanKeep link → R (set s (g.keeping link v (get s))) t) :
    Work.Ensures w R (keep g get set link v) s t Q := by
  rcases keep_cases g get set link v with
    ⟨hlink, hkeep⟩ | ⟨l, -, htells, hkeep⟩ | ⟨l, hlink, htells, hkeep⟩
  · rw [hkeep]
    rw [Setting.keeping_of_none hlink, hset] at h
    exact Work.ensures_pure (h (.inl hlink))
  · rw [hkeep]
    exact Work.ensures_modify (h (.inr htells))
  · rw [hkeep]
    refine Work.ensures_bind (Work.ensures_modify (Work.ensures_crash (hbreak ?_)))
    rintro (hlink' | htells')
    · rw [hlink'] at hlink
      cases hlink
    · rw [htells'] at htells
      cases htells

/-- A link that may be absent is looked up like a list with one link at most. -/
theorem ensures_resolveVpc? {link : Option String} {Q : List Ean → Caches → Session Call → Prop}
    (h : Q (g.found s.vpcs link.toList) { s with vpcs := g.searched s.vpcs link.toList } t) :
    Work.Ensures w R (resolveVpc? g link) s t Q := by
  cases link with
  | none => exact Work.ensures_pure h
  | some link =>
    refine Work.ensures_bind (Work.ensures_modifyGet (Work.ensures_pure ?_))
    simpa [Setting.found, Setting.searched, Cache.resolveAll] using h

end Steps

section Publishing

variable {w : World Call Answer} {R : Caches → Session Call → Prop} {g : Setting} {project : String}
  {s : Caches} {t : Session Call} {Q : Nat → Caches → Session Call → Prop}

theorem ensures_publishVpc {n : Network}
    (hskip : n.id.bind Text.nonEmpty = none → ∀ warnings, Q 0 s { t with warnings })
    (hpublish : ∀ id, n.id.bind Text.nonEmpty = some id → g.CanKeep n.selfLink →
      Q 1 { s with vpcs := g.keeping n.selfLink ⟨id, n.name.getD "", project⟩ s.vpcs }
        { t with records := t.records ++ [vpcRecord g project n id] })
    (hbreak : ∀ id, n.id.bind Text.nonEmpty = some id → ¬ g.CanKeep n.selfLink →
      R { s with vpcs := g.keeping n.selfLink ⟨id, n.name.getD "", project⟩ s.vpcs } t) :
    Work.Ensures w R (publishVpc g project n) s t Q := by
  unfold publishVpc
  split
  case h_1 hid => exact Work.ensures_skip (hskip hid)
  case h_2 id hid =>
    refine Work.ensures_bind (ensures_keep rfl (fun hkeep => ?_) (hbreak id hid))
    exact Work.ensures_bind (Work.ensures_publish (Work.ensures_pure (hpublish id hid hkeep)))

theorem ensures_publishSubnet {n : Subnetwork}
    (hskip : n.id.bind Text.nonEmpty = none → ∀ warnings, Q 0 s { t with warnings })
    (hpublish : ∀ id, n.id.bind Text.nonEmpty = some id → g.CanKeep n.selfLink →
      Q 1
        { s with
          vpcs := g.searched s.vpcs n.network.toList
          subnets :=
            g.keeping n.selfLink ⟨id, n.name.getD "", project, n.regionName⟩ s.subnets }
        { t with
          records :=
            t.records ++ [subnetRecord g project n id (g.found s.vpcs n.network.toList)] })
    (hbreak : ∀ id, n.id.bind Text.nonEmpty = some id → ¬ g.CanKeep n.selfLink →
      R
        { s with
          subnets :=
            g.keeping n.selfLink ⟨id, n.name.getD "", project, n.regionName⟩ s.subnets } t) :
    Work.Ensures w R (publishSubnet g project n) s t Q := by
  unfold publishSubnet
  split
  case h_1 hid => exact Work.ensures_skip (hskip hid)
  case h_2 id hid =>
    refine Work.ensures_bind (ensures_keep rfl (fun hkeep => ?_) (hbreak id hid))
    refine Work.ensures_bind (ensures_resolveVpc? ?_)
    exact Work.ensures_bind (Work.ensures_publish (Work.ensures_pure (hpublish id hid hkeep)))

theorem ensures_publishInstance {zone : String} {i : Instance}
    (hskip : summary? project zone i = none → ∀ warnings, Q 0 s { t with warnings })
    (hpublish : ∀ v, summary? project zone i = some v → g.CanKeep i.selfLink →
      Q 1
        { s with
          subnets := g.searched s.subnets i.subnetLinks
          instances := g.keeping i.selfLink v s.instances }
        { t with
          records := t.records ++
            [machineRecord g project i v (g.found s.subnets i.subnetLinks)] })
    (hbreak : ∀ v, summary? project zone i = some v → ¬ g.CanKeep i.selfLink →
      R { s with instances := g.keeping i.selfLink v s.instances } t) :
    Work.Ensures w R (publishInstance g project zone i) s t Q := by
  unfold publishInstance
  split
  case h_1 hsummary => exact Work.ensures_skip (hskip hsummary)
  case h_2 v hsummary =>
    refine Work.ensures_bind (ensures_keep rfl (fun hkeep => ?_) (hbreak v hsummary))
    refine Work.ensures_bind (Work.ensures_modifyGet ?_)
    exact Work.ensures_bind
      (Work.ensures_publish (Work.ensures_pure (hpublish v hsummary hkeep)))

end Publishing

end CloudInventory.Gcp
