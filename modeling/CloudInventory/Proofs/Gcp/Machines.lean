import CloudInventory.Proofs.Cache.Shown
import CloudInventory.Proofs.Gcp.Publish

/-!
What the jobs do to the cache of machines. Jobs for networks and for subnetworks leave it as it is.
The job for machines stores those that have both an id and a link, one after another, under their
links; each is one that the service has listed for the project it is stored with. Where a put breaks
the job off, no machine is added.
-/

namespace CloudInventory.Gcp

/-- The machines with an id among those of a project. -/
def known (project : String) (zones : List ZoneInstances) : List InstanceSummary :=
  zones.flatMap fun z => summaries project z.zone z.instances

theorem mem_known {project : String} {zones : List ZoneInstances} {v : InstanceSummary} :
    v ∈ known project zones ↔
      ∃ z ∈ zones, ∃ i ∈ z.instances, summary? project z.zone i = some v := by
  simp [known, summaries]

theorem summary?_account {project zone : String} {i : Instance} {v : InstanceSummary}
    (h : summary? project zone i = some v) : v.account = project := by
  obtain ⟨id, -, rfl⟩ := Option.map_eq_some_iff.1 h
  rfl

/-- The service has listed a machine for the project it belongs to. -/
def Told (w : World Call Answer) (t : Session Call) (v : InstanceSummary) : Prop :=
  ∃ filter zones, Session.Heard w t (.listInstances v.account filter) zones ∧
    v ∈ known v.account zones

theorem Told.later {w : World Call Answer} {t t' : Session Call} {v : InstanceSummary}
    (h : Told w t v) (hcalls : t.calls <+: t'.calls) : Told w t' v := by
  obtain ⟨filter, zones, hheard, hv⟩ := h
  exact ⟨filter, zones, hheard.later hcalls, hv⟩

/-- What has been answered to a call for the machines of a project has been told. -/
theorem told_of_known {w : World Call Answer} {t : Session Call} {project : String}
    {filter : Option String} {zones : List ZoneInstances} {v : InstanceSummary}
    (h : Session.Heard w t (.listInstances project filter) zones) (hv : v ∈ known project zones) :
    Told w t v ∧ v.account = project := by
  obtain ⟨z, hz, i, hi, hsummary⟩ := mem_known.1 hv
  obtain rfl := summary?_account hsummary
  exact ⟨⟨filter, zones, h, hv⟩, rfl⟩

/-! ### What is stored of a machine -/

section Storing

variable {g : Setting} {project zone : String} {i : Instance}

/-- What a cache is to hold of a machine; nothing without an id or a link. -/
def held? (g : Setting) (project zone : String) (i : Instance) : Option (Held InstanceSummary) :=
  (summary? project zone i).bind fun v =>
    (i.selfLink.bind Text.nonEmpty).map fun link => ⟨link, v, g.now + g.ttl⟩

/-- A cache in which a machine has been put. -/
def stored (g : Setting) (project zone : String) (i : Instance) (c : Cache InstanceSummary) :
    Cache InstanceSummary :=
  match held? g project zone i with
  | some h => (c.put h.link h.value g.ttl g.now).2
  | none => c

theorem held?_expiresAt {h : Held InstanceSummary} (hheld : held? g project zone i = some h) :
    h.expiresAt = g.now + g.ttl := by
  obtain ⟨v, -, hlink⟩ := Option.bind_eq_some_iff.1 hheld
  obtain ⟨link, -, rfl⟩ := Option.map_eq_some_iff.1 hlink
  rfl

theorem held?_value {h : Held InstanceSummary} (hheld : held? g project zone i = some h) :
    summary? project zone i = some h.value := by
  obtain ⟨v, hv, hlink⟩ := Option.bind_eq_some_iff.1 hheld
  obtain ⟨link, -, rfl⟩ := Option.map_eq_some_iff.1 hlink
  exact hv

/-- A machine of which nothing is known is not stored. -/
theorem stored_of_none (h : summary? project zone i = none) (c : Cache InstanceSummary) :
    stored g project zone i c = c := by
  rw [stored, held?, h]
  rfl

/-- Storing a machine is keeping what is known of it. -/
theorem stored_of_some {v : InstanceSummary} (h : summary? project zone i = some v)
    (c : Cache InstanceSummary) : stored g project zone i c = g.keeping i.selfLink v c := by
  rw [stored, held?, h, Option.bind_some, Setting.keeping]
  cases i.selfLink.bind Text.nonEmpty <;> rfl

/-- A machine that can be held breaks the job off unless the clock can tell the time. -/
theorem tells_of_canKeep {x : Held InstanceSummary} (h : g.CanKeep i.selfLink)
    (hheld : held? g project zone i = some x) : Clock.tells g.now g.ttl = true := by
  refine h.resolve_left fun hnone => ?_
  obtain ⟨v, -, hlink⟩ := Option.bind_eq_some_iff.1 hheld
  rw [hnone] at hlink
  cases hlink

/-- Everything that a cache stores has a property. -/
def AllStored (P : InstanceSummary → Prop) (c : Cache InstanceSummary) : Prop :=
  ∀ link x, c.stored link = some x → P x.1

namespace AllStored

variable {P Q : InstanceSummary → Prop} {c c' : Cache InstanceSummary}

theorem mono (h : AllStored P c) (hPQ : ∀ v, P v → Q v) : AllStored Q c :=
  fun link x hx => hPQ _ (h link x hx)

theorem of_partOf (h : AllStored P c) (hpart : c'.PartOf c) : AllStored P c' :=
  fun link x hx => h link x (hpart link x hx)

theorem withCapacity (capacity : Nat) : AllStored P (.withCapacity capacity) := nofun

theorem lives (h : AllStored P c) {now : Nat} {v : InstanceSummary} (hv : c.Lives now v) :
    P v := by
  obtain ⟨link, e, hget, -, rfl⟩ := hv
  exact h link (e.value, e.expiresAt) (by rw [Cache.stored, hget]; rfl)

/-- Storing a machine that has a property adds nothing that has not. -/
theorem stored (h : AllStored P c) (hP : ∀ v, summary? project zone i = some v → P v) :
    AllStored P (stored g project zone i c) := by
  unfold Gcp.stored
  split
  case h_2 => exact h
  case h_1 held hheld =>
    intro link x hx
    rcases Cache.stored_put_cases hx with ⟨-, -, rfl⟩ | ⟨-, hx⟩
    · exact hP held.value (held?_value hheld)
    · exact h link x hx

end AllStored

/-- A cache that stores nothing is empty. -/
theorem AllStored.isEmpty {c : Cache InstanceSummary} (h : AllStored (fun _ => False) c)
    (now : Nat) : c.isEmpty now = true := by
  by_contra hsome
  obtain ⟨live, hlive⟩ := c.exists_shows now
  obtain ⟨x, hx⟩ := List.exists_mem_of_ne_nil _ (hlive.ne_nil_iff.2 (Bool.eq_false_iff.2 hsome))
  exact h.lives (hlive.lives_iff.2 ⟨x, hx, rfl⟩)

/-- In a cache that holds nothing, all that is stored has any property. -/
theorem allStored_of_holds_nil {n : Nat} {P : InstanceSummary → Prop} {c : Cache InstanceSummary}
    (h : c.Holds n []) : AllStored P c := by
  intro link x hx
  have hnone : c.entries.get? link = none := h.get?_eq_none_iff.2 List.not_mem_nil
  rw [Cache.stored, hnone] at hx
  cases hx

/-- When the clock cannot tell the time, no machine is added. -/
theorem partOf_stored (h : Clock.tells g.now g.ttl = false) (c : Cache InstanceSummary) :
    (stored g project zone i c).PartOf c := by
  unfold Gcp.stored
  split
  · exact Cache.partOf_put h _ _
  · exact .refl c

/-- With room for one more, a machine with a link of its own comes at the end. -/
theorem holds_stored {n : Nat} {c : Cache InstanceSummary} {hs : List (Held InstanceSummary)}
    (hc : c.Holds n hs) (htells : Clock.tells g.now g.ttl = true) {h : Held InstanceSummary}
    (hheld : held? g project zone i = some h) (hnew : h.link ∉ hs.map Held.link)
    (hroom : hs.length < n) : (stored g project zone i c).Holds n (hs ++ [h]) := by
  have hput := hc.put htells h.link h.value
  rw [Held.staying, if_neg hnew, if_pos hroom, ← held?_expiresAt hheld] at hput
  rw [stored, hheld]
  exact hput

end Storing

/-! ### Jobs -/

section Jobs

variable {w : World Call Answer} {R : Caches → Session Call → Prop} {g : Setting} {project : String}
  {s : Caches} {t : Session Call}

/-- A machine is stored, or passed over if it cannot be. The cache is the same whether the job goes
on or breaks off. -/
theorem ensures_publishInstance_stored {zone : String} {i : Instance}
    {Q : Nat → Caches → Session Call → Prop}
    (h : (∀ x, held? g project zone i = some x → Clock.tells g.now g.ttl = true) →
      ∀ k subnets records warnings,
        Q k { s with subnets, instances := stored g project zone i s.instances }
          { t with records, warnings })
    (hbreak : Clock.tells g.now g.ttl = false →
      R { s with instances := stored g project zone i s.instances } t) :
    Work.Ensures w R (publishInstance g project zone i) s t Q := by
  refine ensures_publishInstance (fun hnone warnings => ?_) (fun v hv hkeep => ?_)
    fun v hv hkeep => ?_
  · have hheld : held? g project zone i = none := by
      rw [held?, hnone]
      rfl
    rw [stored_of_none hnone] at h
    refine h (fun x hx => ?_) 0 s.subnets t.records warnings
    rw [hheld] at hx
    cases hx
  · rw [stored_of_some hv] at h
    exact h (fun x => tells_of_canKeep hkeep) 1 _ _ t.warnings
  · rw [stored_of_some hv] at hbreak
    exact hbreak (Bool.eq_false_iff.2 fun htells => hkeep (.inr htells))

/-- The job for machines stores what it has been told, whether or not it breaks off. -/
theorem ensures_instancesOf (hproject : project ∈ g.projects) {P : InstanceSummary → Prop}
    (h : AllStored (fun v => P v ∨ v.account ∈ g.projects ∧ Told w t v) s.instances)
    (hR : ∀ s' t', AllStored (fun v => P v ∨ v.account ∈ g.projects ∧ Told w t' v) s'.instances →
      R s' t') :
    Work.Ensures w R (instancesOf g project).run s t fun _ s' t' =>
      AllStored (fun v => P v ∨ v.account ∈ g.projects ∧ Told w t' v) s'.instances := by
  have hlater : ∀ t', t.calls <+: t'.calls →
      AllStored (fun v => P v ∨ v.account ∈ g.projects ∧ Told w t' v) s.instances :=
    fun t' hcalls => h.mono fun v hv => hv.imp_right fun hv => ⟨hv.1, hv.2.later hcalls⟩
  refine Work.ensures_askTotal (fun e _ => hlater _ Session.ask_calls) fun zones hzones => ?_
  have hheard := Session.heard_of_ask hzones
  -- the calls do not change any more, so that what is told by now is told in the end
  let I : Caches → Session Call → Prop := fun s' t' =>
    t'.calls = (t.ask w (.listInstances project none)).2.calls ∧
      AllStored (fun v => P v ∨ v.account ∈ g.projects ∧ Told w t' v) s'.instances
  refine (Work.ensures_total (fun _ => I) ?_ ⟨rfl, hlater _ Session.ask_calls⟩).mono
    fun _ _ _ hI => hI.2
  rintro done z hz s₁ t₁ hI
  have hz' : z ∈ zones := List.mem_of_mem_filter (hz.subset (by simp))
  refine Work.ensures_total (fun _ => I) ?_ hI
  rintro done' i hi s₂ t₂ ⟨hcalls, hall⟩
  have hi' : i ∈ z.instances := hi.subset (by simp)
  have hstored : AllStored (fun v => P v ∨ v.account ∈ g.projects ∧ Told w t₂ v)
      (stored g project z.zone i s₂.instances) := by
    refine hall.stored fun v hv => .inr ?_
    have hlast : (t.ask w (.listInstances project none)).2.calls <+: t₂.calls :=
      ⟨[], by rw [List.append_nil, hcalls]⟩
    obtain ⟨htold, haccount⟩ := told_of_known (hheard.later hlast)
      (mem_known.2 ⟨z, hz', i, hi', hv⟩)
    exact ⟨haccount ▸ hproject, htold⟩
  exact ensures_publishInstance_stored (fun _ k subnets records warnings => ⟨hcalls, hstored⟩)
    fun _ => hR _ _ hstored

/-- The job for networks leaves the machines as they are. -/
theorem ensures_vpcsOf :
    Work.Ensures w (fun s' _ => s'.instances = s.instances) (vpcsOf g project).run s t
      fun _ s' _ => s'.instances = s.instances := by
  refine Work.ensures_askTotal (fun e _ => rfl) fun networks _ => ?_
  refine Work.ensures_total (fun _ (s' : Caches) _ => s'.instances = s.instances) ?_ rfl
  rintro done network - s₁ t₁ hI
  exact ensures_publishVpc (fun _ _ => hI) (fun _ _ _ => hI) fun _ _ _ => hI

/-- The job for subnetworks leaves the machines as they are. -/
theorem ensures_subnetsOf :
    Work.Ensures w (fun s' _ => s'.instances = s.instances) (subnetsOf g project).run s t
      fun _ s' _ => s'.instances = s.instances := by
  refine Work.ensures_askTotal (fun e _ => rfl) fun subnets _ => ?_
  refine Work.ensures_total (fun _ (s' : Caches) _ => s'.instances = s.instances) ?_ rfl
  rintro done subnet - s₁ t₁ hI
  exact ensures_publishSubnet (fun _ _ => hI) (fun _ _ _ => hI) fun _ _ _ => hI

end Jobs

end CloudInventory.Gcp
