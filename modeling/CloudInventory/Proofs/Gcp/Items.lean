import CloudInventory.Proofs.Cache.Mirror
import CloudInventory.Proofs.Gcp.Turns
import CloudInventory.Proofs.Program.Accounts

/-!
The items that a job publishes, one record for each, and what it posts in the caches. What a listing
answers tells of items in the wanted regions; those with an id are published in the order of the
listing. While a job runs, what the caches store is what has been posted before and what it has
posted so far; and the caches are mirrors of that, as long as they have room and no put has broken
off. `sound` and `given` are the suppositions that the caches were so to begin with; that there is a
record for each item holds without them.
-/

namespace CloudInventory.Gcp

/-- An item that a listing tells of. -/
inductive Item where
  | network (n : Network)
  | subnetwork (n : Subnetwork)
  | machine (i : Instance)
  | cluster (c : GkeCluster)
  deriving DecidableEq

namespace Item

/-- The type of an item's record. -/
def type : Item → AssetType
  | network _ => .gcpVpc
  | subnetwork _ => .gcpSubnet
  | machine _ => .gceInstance
  | cluster _ => .cluster

/-- The id of an item, if it has one that is not empty. -/
def id? : Item → Option String
  | network n => n.id.bind Text.nonEmpty
  | subnetwork n => n.id.bind Text.nonEmpty
  | machine i => i.id.bind Text.nonEmpty
  | cluster c => c.id.bind Text.nonEmpty

/-- The link under which an item is kept, if it has one that is not empty. -/
def selfLink? : Item → Option String
  | network n => n.selfLink.bind Text.nonEmpty
  | subnetwork n => n.selfLink.bind Text.nonEmpty
  | machine i => i.selfLink.bind Text.nonEmpty
  | cluster _ => none

/-- What an item posts when it is published at some time. -/
def posting? (time : Nat) (i : Item) : Option Posting :=
  i.selfLink?.bind fun link => i.id?.map fun id => ⟨link, id, time⟩

/-- The links by which an item names its parents: that of its network for a subnetwork, those of the
subnetworks of its interfaces in their order for a machine, and for a cluster the path of its
network after the prefix of all links. -/
def parentLinks : Item → List String
  | network _ => []
  | subnetwork n => n.network.toList
  | machine i => i.networkInterfaces.filterMap NetworkInterface.subnetwork
  | cluster c =>
    ((c.networkConfig.bind NetworkConfig.network).toList.filter (· ≠ "")).map fun path =>
      "https://www.googleapis.com/compute/v1/" ++ path

/-- The parents of an item, by what has been posted of networks and of subnetworks. -/
def parents (ttl now : Nat) (vpcs subnets : List Posting) (i : Item) : List Ean :=
  i.parentLinks.filterMap <| Posting.edge? ttl now <|
    match i with
    | network _ | subnetwork _ | cluster _ => vpcs
    | machine _ => subnets

/-- The items that have ids. -/
def identified (items : List Item) : List Item := items.filter fun i => i.id?.isSome

/-- The items in the wanted regions that an answer tells of. Machines that are listed with a filter
are only looked for, and not published. -/
def tell (regions : List String) : (c : Call) → Answer c → List Item
  | .listNetworks _, networks => identified (networks.map network)
  | .listSubnetworks _, subnets =>
    identified ((subnets.filter fun n => wantsRegion regions (n.region.getD "")).map subnetwork)
  | .listInstances _ none, zones =>
    (zones.filter fun z => wantsZone regions z.zone).flatMap fun z =>
      identified (z.instances.map machine)
  | .listInstances _ (some _), _ => []
  | .listClusters _, clusters => identified (clusters.map cluster)

/-- Only items with ids are told of. -/
theorem isSome_id?_of_mem_tell {regions : List String} {i : Item} : ∀ {c : Call} {a : Answer c},
    i ∈ tell regions c a → i.id?.isSome
  | .listNetworks _, _, h => (List.mem_filter.1 h).2
  | .listSubnetworks _, _, h => (List.mem_filter.1 h).2
  | .listInstances _ none, _, h => by
    obtain ⟨z, -, hi⟩ := List.mem_flatMap.1 h
    exact (List.mem_filter.1 hi).2
  | .listInstances _ (some _), _, h => absurd h List.not_mem_nil
  | .listClusters _, _, h => (List.mem_filter.1 h).2

theorem posting?_of_id {i : Item} {id : String} (h : i.id? = some id) (time : Nat) :
    i.posting? time = i.selfLink?.map fun link => ⟨link, id, time⟩ := by
  rw [posting?, h]
  cases i.selfLink? <;> rfl

theorem identified_map {α : Type} (item : α → Item) (as : List α) :
    identified (as.map item) = as.flatMap fun a => identified [item a] := by
  induction as with
  | nil => rfl
  | cons a as ih =>
    rw [List.map_cons, List.flatMap_cons, ← ih, identified, List.filter_cons, identified]
    split <;> simp_all [identified]

theorem identified_of_none {i : Item} (h : i.id? = none) : identified [i] = [] := by
  simp [identified, h]

theorem identified_of_some {i : Item} {id : String} (h : i.id? = some id) :
    identified [i] = [i] := by
  simp [identified, h]

end Item

/-! ### Postings -/

/-- What items of a type have posted, when these have been published at those times. -/
def postings (type : AssetType) (events : List (Nat × Item)) : List Posting :=
  events.filterMap fun e => if e.2.type = type then e.2.posting? e.1 else none

/-- Items that are published at one time. -/
def eventsAt (time : Nat) (items : List Item) : List (Nat × Item) := items.map (Prod.mk time)

theorem postings_append (type : AssetType) (events events' : List (Nat × Item)) :
    postings type (events ++ events') = postings type events ++ postings type events' :=
  List.filterMap_append

theorem postings_singleton_of_eq {type : AssetType} {i : Item} (htype : i.type = type)
    (time : Nat) : postings type [(time, i)] = (i.posting? time).toList := by
  cases h : i.posting? time <;> simp [postings, htype, h]

theorem postings_singleton_of_ne {type : AssetType} {i : Item} (htype : i.type ≠ type)
    (time : Nat) : postings type [(time, i)] = [] := by
  simp [postings, htype]

/-- Postings are as old as the items. -/
theorem time_le_of_mem_postings (type : AssetType) {events : List (Nat × Item)} {now : Nat}
    (h : ∀ e ∈ events, e.1 ≤ now) : ∀ p ∈ postings type events, p.time ≤ now := by
  intro p hp
  obtain ⟨e, he, hposting⟩ := List.mem_filterMap.1 hp
  split at hposting
  case isTrue =>
    obtain ⟨link, -, hlink⟩ := Option.bind_eq_some_iff.1 hposting
    obtain ⟨id, -, rfl⟩ := Option.map_eq_some_iff.1 hlink
    exact h e he
  case isFalse => cases hposting

/-- Items of other types post nothing. -/
theorem postings_eventsAt_of_type_ne {type : AssetType} {time : Nat} {items : List Item}
    (h : ∀ i ∈ items, i.type ≠ type) : postings type (eventsAt time items) = [] := by
  refine List.filterMap_eq_nil_iff.2 fun e he => ?_
  obtain ⟨i, hi, rfl⟩ := List.mem_map.1 he
  exact if_neg (h i hi)

theorem eventsAt_concat (time : Nat) (items : List Item) (i : Item) :
    eventsAt time (items ++ [i]) = eventsAt time items ++ [(time, i)] := by
  simp [eventsAt]

/-! ### The account of a job -/

/-- What has been published before is of the past, and caches have room for all of it that is
current. -/
structure Grounds (n : Nat) (g : Setting) (past : List (Nat × Item)) : Prop where
  times : ∀ e ∈ past, e.1 ≤ g.now
  vpcs : Posting.Fits n g.ttl g.now (postings .gcpVpc past)
  subnets : Posting.Fits n g.ttl g.now (postings .gcpSubnet past)

/-- What a cache has to do with postings: it stores nothing else, and mirrors them if it has had
room for them. -/
structure Knows {α : Type} [HasId α] (sound given : Prop) (n : Nat) (g : Setting) (c : Cache α)
    (ps : List Posting) : Prop where
  reflects : sound → Reflects g.ttl c ps
  mirrors : given → Posting.Fits n g.ttl g.now ps → Mirrors n g.ttl g.now c ps

/-- While the items of a type are published, the caches know what has been posted. -/
structure Recorded (sound given : Prop) (n : Nat) (g : Setting) (type : AssetType)
    (past : List (Nat × Item)) (done : List Item) (s : Caches) : Prop where
  typed : ∀ i ∈ done, i.type = type
  vpcs : Knows sound given n g s.vpcs (postings .gcpVpc (past ++ eventsAt g.now done))
  subnets : Knows sound given n g s.subnets (postings .gcpSubnet (past ++ eventsAt g.now done))

/-- Where a job breaks off, the clock cannot tell when entries will expire, and the caches still
store nothing but what has been posted. -/
structure Halted (sound : Prop) (g : Setting) (past : List (Nat × Item)) (done : List Item)
    (s : Caches) : Prop where
  untold : Clock.tells g.now g.ttl = false
  vpcs : sound → Reflects g.ttl s.vpcs (postings .gcpVpc (past ++ eventsAt g.now done))
  subnets : sound → Reflects g.ttl s.subnets (postings .gcpSubnet (past ++ eventsAt g.now done))

/-- The record of an item has its id, and as parents some that have been posted before, or all. -/
structure Depicts (sound given : Prop) (g : Setting) (past : List (Nat × Item)) (i : Item)
    (r : Record) : Prop where
  id_eq : r.id = i.id?
  parents_sublist : sound → r.parents.Sublist
    (i.parents g.ttl g.now (postings .gcpVpc past) (postings .gcpSubnet past))
  parents_eq : given →
    r.parents = i.parents g.ttl g.now (postings .gcpVpc past) (postings .gcpSubnet past)

/-- The account of the job for a type. -/
def account (sound given : Prop) (n : Nat) (w : World Call Answer) (g : Setting)
    (type : AssetType) (past : List (Nat × Item)) : Account Caches Call Answer Item where
  world := w
  tell := Item.tell g.regions
  State := Recorded sound given n g type past
  Describes := Depicts sound given g past
  Breaks := Halted sound g past

section Accounts

variable {sound given : Prop} {n : Nat} {w : World Call Answer} {g : Setting} {type : AssetType}
  {past : List (Nat × Item)} {done : List Item} {s s' : Caches} {t : Session Call}

namespace Knows

variable {α : Type} [HasId α] {c : Cache α} {ps : List Posting}

/-- Keeping something under a link adds its posting. -/
theorem keeping (h : Knows sound given n g c ps) {link : Option String}
    (hkeep : g.CanKeep link) (value : α) (hid : HasId.id value ≠ "")
    (hpast : given → ∀ p ∈ ps, p.time ≤ g.now) :
    Knows sound given n g (g.keeping link value c)
      (ps ++ ((link.bind Text.nonEmpty).map fun l => ⟨l, HasId.id value, g.now⟩).toList) := by
  cases hlink : link.bind Text.nonEmpty with
  | none =>
    rw [Setting.keeping_of_none hlink, Option.map_none, Option.toList_none, List.append_nil]
    exact h
  | some l =>
    have htells : Clock.tells g.now g.ttl = true := by
      refine hkeep.resolve_left fun hnone => ?_
      rw [hnone] at hlink
      cases hlink
    rw [Setting.keeping_of_some hlink, Option.map_some, Option.toList_some]
    refine ⟨fun hs => (h.reflects hs).put l value, fun hg hfits => ?_⟩
    exact (h.mirrors hg (hfits.of_concat (hpast hg) rfl)).put htells
      (Text.ne_empty_of_bind_nonEmpty hlink) hid hfits

/-- Keeping that breaks off adds nothing. -/
theorem keeping_of_not_canKeep (h : Knows sound given n g c ps) {link : Option String}
    (hkeep : ¬ g.CanKeep link) (value : α) :
    sound → Reflects g.ttl (g.keeping link value c) ps := by
  intro hs
  have htells : Clock.tells g.now g.ttl = false := Bool.eq_false_iff.2 (mt Or.inr hkeep)
  obtain ⟨l, hlink⟩ := Option.ne_none_iff_exists'.1 (mt Or.inl hkeep)
  rw [Setting.keeping_of_some hlink]
  exact (h.reflects hs).of_partOf (Cache.partOf_put htells l value)

/-- Looking links up leads to what has been posted, or to a part of it. -/
theorem searched (h : Knows sound given n g c ps)
    (hfits : given → Posting.Fits n g.ttl g.now ps) (links : List String) :
    (sound → (g.found c links).Sublist (links.filterMap (Posting.edge? g.ttl g.now ps))) ∧
      (given → g.found c links = links.filterMap (Posting.edge? g.ttl g.now ps)) ∧
        Knows sound given n g (g.searched c links) ps := by
  refine ⟨fun hs => (h.reflects hs).resolveAll_sublist links, fun hg => ?_, fun hs => ?_,
    fun hg hfits' => ?_⟩
  · obtain ⟨c', hresolve, -⟩ := (h.mirrors hg (hfits hg)).resolveAll links
    rw [Setting.found, hresolve]
  · exact (h.reflects hs).of_partOf (Cache.partOf_resolveAll .network g.now links c)
  · obtain ⟨c', hresolve, hc'⟩ := (h.mirrors hg hfits').resolveAll links
    rw [Setting.searched, hresolve]
    exact hc'

end Knows

theorem Grounds.times_done (h : Grounds n g past) (done : List Item) :
    ∀ e ∈ past ++ eventsAt g.now done, e.1 ≤ g.now := by
  intro e he
  rcases List.mem_append.1 he with he | he
  · exact h.times e he
  · obtain ⟨i, -, rfl⟩ := List.mem_map.1 he
    exact Nat.le_refl _

/-- A job posts nothing of another type than its own. -/
theorem Recorded.postings_eq (h : Recorded sound given n g type past done s) {other : AssetType}
    (hother : type ≠ other) :
    postings other (past ++ eventsAt g.now done) = postings other past := by
  rw [postings_append, postings_eventsAt_of_type_ne fun i hi => h.typed i hi ▸ hother,
    List.append_nil]

/-! ### Steps of an account -/

/-- An item without an id is passed over. -/
theorem posted_skip (h : (account sound given n w g type past).Posted done s t) {i : Item}
    (hid : i.id? = none) (warnings : List Warning) :
    (account sound given n w g type past).Posted (done ++ Item.identified [i]) s
      { t with warnings } := by
  rw [Item.identified_of_none hid, List.append_nil]
  exact ⟨h.state, h.records⟩

/-- An item with an id gets a record. -/
theorem posted_concat (h : (account sound given n w g type past).Posted done s t) {i : Item}
    {id : String} {r : Record} (hid : i.id? = some id) (htype : i.type = type)
    (hr : Depicts sound given g past i r)
    (hvpcs : Knows sound given n g s'.vpcs (postings .gcpVpc (past ++ eventsAt g.now done) ++
      postings .gcpVpc [(g.now, i)]))
    (hsubnets : Knows sound given n g s'.subnets
      (postings .gcpSubnet (past ++ eventsAt g.now done) ++ postings .gcpSubnet [(g.now, i)]))
    {t' : Session Call} (ht' : t'.records = t.records ++ [r]) :
    (account sound given n w g type past).Posted (done ++ Item.identified [i]) s' t' := by
  rw [Item.identified_of_some hid]
  refine ⟨⟨?_, ?_, ?_⟩, ?_⟩
  · exact List.forall_mem_append.2 ⟨h.state.typed, List.forall_mem_singleton.2 htype⟩
  · rw [eventsAt_concat, ← List.append_assoc, postings_append]
    exact hvpcs
  · rw [eventsAt_concat, ← List.append_assoc, postings_append]
    exact hsubnets
  · rw [ht']
    exact List.rel_append h.records (.cons hr .nil)

/-- An item that cannot be kept breaks the job off. -/
theorem brokenOff (h : (account sound given n w g type past).Posted done s t)
    {link : Option String} (hkeep : ¬ g.CanKeep link)
    (hvpcs : sound → Reflects g.ttl s'.vpcs (postings .gcpVpc (past ++ eventsAt g.now done)))
    (hsubnets : sound →
      Reflects g.ttl s'.subnets (postings .gcpSubnet (past ++ eventsAt g.now done)))
    (items : List Item) :
    (account sound given n w g type past).BrokenOff (done ++ items) s' t := by
  have huntold : Clock.tells g.now g.ttl = false := Bool.eq_false_iff.2 (mt Or.inr hkeep)
  exact ⟨done, List.prefix_append _ _, h.records, huntold, hvpcs, hsubnets⟩

/-! ### Items of the four types -/

theorem publishes_network (hgiven : given → Grounds n g past) (project : String) (i : Network) :
    (account sound given n w g .gcpVpc past).Publishes (publishVpc g project i)
      (Item.identified [.network i]) := by
  intro done s t h
  refine ensures_publishVpc (fun hid warnings => ?_) (fun id hid hkeep => ?_)
    fun id hid hkeep => ?_
  · exact ⟨rfl, posted_skip h (i := .network i) hid warnings⟩
  · obtain ⟨hrid, hparents⟩ := vpcRecord_attributes g project i id
    have htype : (Item.network i).type = .gcpVpc := rfl
    have hother : (Item.network i).type ≠ .gcpSubnet := nofun
    refine ⟨rfl, posted_concat h (i := .network i) hid rfl
      ⟨hrid.trans hid.symm, fun _ => ?_, fun _ => hparents⟩ ?_ ?_ rfl⟩
    · rw [hparents]
      exact .slnil
    · rw [postings_singleton_of_eq htype, Item.posting?_of_id (i := .network i) hid]
      exact h.state.vpcs.keeping hkeep ⟨id, i.name.getD "", project⟩
        (Text.ne_empty_of_bind_nonEmpty hid)
        fun hg => time_le_of_mem_postings .gcpVpc ((hgiven hg).times_done done)
    · rw [postings_singleton_of_ne hother, List.append_nil]
      exact h.state.subnets
  · refine ⟨rfl, brokenOff h hkeep ?_ ?_ _⟩
    · exact h.state.vpcs.keeping_of_not_canKeep hkeep _
    · exact h.state.subnets.reflects

theorem publishes_subnetwork (hgiven : given → Grounds n g past) (project : String)
    (i : Subnetwork) :
    (account sound given n w g .gcpSubnet past).Publishes (publishSubnet g project i)
      (Item.identified [.subnetwork i]) := by
  intro done s t h
  have hvpcs : postings .gcpVpc (past ++ eventsAt g.now done) = postings .gcpVpc past :=
    h.state.postings_eq nofun
  -- the networks are only read
  obtain ⟨hsome, hall, hknows⟩ :=
    (hvpcs ▸ h.state.vpcs).searched (fun hg => (hgiven hg).vpcs) i.network.toList
  refine ensures_publishSubnet (fun hid warnings => ?_) (fun id hid hkeep => ?_)
    fun id hid hkeep => ?_
  · exact ⟨rfl, posted_skip h (i := .subnetwork i) hid warnings⟩
  · obtain ⟨hrid, hparents⟩ := subnetRecord_attributes g project i id
      (g.found s.vpcs i.network.toList)
    have htype : (Item.subnetwork i).type = .gcpSubnet := rfl
    have hother : (Item.subnetwork i).type ≠ .gcpVpc := nofun
    refine ⟨rfl, posted_concat h (i := .subnetwork i) hid rfl
      ⟨hrid.trans hid.symm, fun hs => ?_, fun hg => hparents.trans (hall hg)⟩ ?_ ?_ rfl⟩
    · rw [hparents]
      exact hsome hs
    · rw [postings_singleton_of_ne hother, List.append_nil, hvpcs]
      exact hknows
    · rw [postings_singleton_of_eq htype, Item.posting?_of_id (i := .subnetwork i) hid]
      exact h.state.subnets.keeping hkeep ⟨id, i.name.getD "", project, i.regionName⟩
        (Text.ne_empty_of_bind_nonEmpty hid)
        fun hg => time_le_of_mem_postings .gcpSubnet ((hgiven hg).times_done done)
  · refine ⟨rfl, brokenOff h hkeep ?_ ?_ _⟩
    · exact h.state.vpcs.reflects
    · exact h.state.subnets.keeping_of_not_canKeep hkeep _

theorem summary?_eq_none_iff {project zone : String} {i : Instance} :
    summary? project zone i = none ↔ (Item.machine i).id? = none :=
  Option.map_eq_none_iff

theorem id?_machine {project zone : String} {i : Instance} {v : InstanceSummary}
    (h : summary? project zone i = some v) : (Item.machine i).id? = some v.id := by
  obtain ⟨id, hid, rfl⟩ := Option.map_eq_some_iff.1 h
  exact hid

theorem publishes_machine (hgiven : given → Grounds n g past) (project zone : String)
    (i : Instance) :
    (account sound given n w g .gceInstance past).Publishes (publishInstance g project zone i)
      (Item.identified [.machine i]) := by
  intro done s t h
  have hsubnets : postings .gcpSubnet (past ++ eventsAt g.now done) = postings .gcpSubnet past :=
    h.state.postings_eq nofun
  obtain ⟨hsome, hall, hknows⟩ :=
    (hsubnets ▸ h.state.subnets).searched (fun hg => (hgiven hg).subnets) i.subnetLinks
  refine ensures_publishInstance (fun hv warnings => ?_) (fun v hv hkeep => ?_)
    fun v hv hkeep => ?_
  · exact ⟨rfl, posted_skip h (summary?_eq_none_iff.1 hv) warnings⟩
  · obtain ⟨hrid, hparents⟩ := machineRecord_attributes g project i v
      (g.found s.subnets i.subnetLinks)
    have hid := id?_machine hv
    have hvpc : (Item.machine i).type ≠ .gcpVpc := nofun
    have hsubnet : (Item.machine i).type ≠ .gcpSubnet := nofun
    refine ⟨rfl, posted_concat h hid rfl
      ⟨hrid.trans hid.symm, fun hs => ?_, fun hg => hparents.trans (hall hg)⟩ ?_ ?_ rfl⟩
    · rw [hparents]
      exact hsome hs
    · rw [postings_singleton_of_ne hvpc, List.append_nil]
      exact h.state.vpcs
    · rw [postings_singleton_of_ne hsubnet, List.append_nil, hsubnets]
      exact hknows
  · refine ⟨rfl, brokenOff h hkeep ?_ ?_ _⟩
    · exact h.state.vpcs.reflects
    · exact h.state.subnets.reflects

/-- The search for the machines of a cluster tells of nothing that is to be published. -/
theorem told_afterSearch (project : String) (c : GkeCluster) (s : Caches) (t : Session Call) :
    (account sound given n w g .cluster past).told (afterSearch w g project c s t) =
      (account sound given n w g .cluster past).told t := by
  unfold afterSearch
  split
  · refine (t.told_ask w (Item.tell g.regions) (c.call project)).trans ?_
    cases (t.ask w (c.call project)).1 <;> exact List.append_nil _
  · rfl

/-- The link that is looked up for a cluster is the one by which it names its network. -/
theorem networkLink?_toList (c : GkeCluster) :
    c.networkLink?.toList = (Item.cluster c).parentLinks := by
  show _ = ((c.networkConfig.bind NetworkConfig.network).toList.filter (· ≠ "")).map networkLink
  rw [GkeCluster.networkLink?]
  cases c.networkConfig.bind NetworkConfig.network with
  | none => rfl
  | some path =>
    rw [Option.bind_some, Text.nonEmpty, Option.toList_some]
    by_cases hpath : path = ""
    · rw [if_pos hpath, List.filter_cons_of_neg (by simpa using hpath)]
      rfl
    · rw [if_neg hpath, List.filter_cons_of_pos (by simpa using hpath)]
      rfl

theorem publishes_cluster_item (hgiven : given → Grounds n g past) (project : String)
    (c : GkeCluster) :
    (account sound given n w g .cluster past).Publishes (publishCluster g project c)
      (Item.identified [.cluster c]) := by
  intro done s t h
  have hvpcs : postings .gcpVpc (past ++ eventsAt g.now done) = postings .gcpVpc past :=
    h.state.postings_eq nofun
  obtain ⟨hsome, hall, hknows⟩ :=
    (hvpcs ▸ h.state.vpcs).searched (fun hg => (hgiven hg).vpcs) c.networkLink?.toList
  cases hid : c.id.bind Text.nonEmpty with
  | none =>
    exact ensures_publishCluster_skip hid fun warnings =>
      ⟨rfl, posted_skip h (i := .cluster c) hid warnings⟩
  | some id =>
    refine ensures_publishCluster hid fun warnings => ⟨told_afterSearch project c s t, ?_⟩
    obtain ⟨-, hrid, -, -⟩ := clusterRecord_attributes g project c id
      (g.found s.vpcs c.networkLink?.toList)
      ((clusterSearch w g project c s t).ids.toOption.getD [])
    have hvpc : (Item.cluster c).type ≠ .gcpVpc := nofun
    have hsubnet : (Item.cluster c).type ≠ .gcpSubnet := nofun
    have hparents : (Item.cluster c).parents g.ttl g.now (postings .gcpVpc past)
        (postings .gcpSubnet past) =
          c.networkLink?.toList.filterMap (Posting.edge? g.ttl g.now (postings .gcpVpc past)) := by
      rw [networkLink?_toList]
      rfl
    refine posted_concat h (i := .cluster c) hid rfl
      ⟨hrid.trans hid.symm, fun hs => ?_, fun hg => ?_⟩ ?_ ?_ rfl
    · rw [hparents, clusterRecord_parents]
      exact hsome hs
    · rw [hparents, clusterRecord_parents]
      exact hall hg
    · rw [postings_singleton_of_ne hvpc, List.append_nil, hvpcs]
      exact hknows
    · rw [postings_singleton_of_ne hsubnet, List.append_nil]
      exact h.state.subnets

/-! ### Jobs -/

/-- The work for a type in a project publishes a record for each item that it is told of. -/
theorem collects_of_workIn?_account (hgiven : given → Grounds n g past)
    {collect : String → Try Nat} (hcollect : workIn? g type = some collect) (project : String) :
    (account sound given n w g type past).Collects (collect project) := by
  unfold workIn? at hcollect
  split at hcollect
  · obtain rfl := Option.some.inj hcollect
    refine Account.collects_askTotal fun zones => Account.publishes_total fun z _ => ?_
    rw [Item.identified_map]
    exact Account.publishes_total fun i _ => publishes_machine hgiven project z.zone i
  · obtain rfl := Option.some.inj hcollect
    refine Account.collects_askTotal fun networks => ?_
    show (account _ _ _ _ _ _ _).Publishes _ (Item.identified (networks.map .network))
    rw [Item.identified_map]
    exact Account.publishes_total fun i _ => publishes_network hgiven project i
  · obtain rfl := Option.some.inj hcollect
    refine Account.collects_askTotal fun subnets => ?_
    show (account _ _ _ _ _ _ _).Publishes _ (Item.identified (List.map .subnetwork _))
    rw [Item.identified_map]
    exact Account.publishes_total fun i _ => publishes_subnetwork hgiven project i
  · obtain rfl := Option.some.inj hcollect
    refine Account.collects_totalAttempt fun parent => ?_
    refine Account.collects_askTotal fun clusters => ?_
    show (account _ _ _ _ _ _ _).Publishes _ (Item.identified (clusters.map .cluster))
    rw [Item.identified_map]
    exact Account.publishes_total fun c _ => publishes_cluster_item hgiven project c
  · cases hcollect

end Accounts

end CloudInventory.Gcp
