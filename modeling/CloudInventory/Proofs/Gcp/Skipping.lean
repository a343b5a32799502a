import CloudInventory.Proofs.Gcp.Items
import CloudInventory.Proofs.Gcp.Limits
import CloudInventory.Proofs.Program.Skipping

/-!
Items of Google Cloud that are skipped. Networks, subnetworks, machines and clusters are published
as they are listed, as far as regions are wanted. One without an id is skipped before anything is
kept in a cache. One with a link of its own breaks a job off if the clock cannot tell when it will
expire.
-/

namespace CloudInventory.Gcp

/-- Something that is listed; a machine is listed in a zone. -/
inductive ListedItem where
  | network (n : Network)
  | subnetwork (n : Subnetwork)
  | machine (zone : String) (i : Instance)
  | cluster (c : GkeCluster)

/-- The item without its place. -/
def ListedItem.item : ListedItem → Item
  | network n => .network n
  | subnetwork n => .subnetwork n
  | machine _ i => .machine i
  | cluster c => .cluster c

/-- What is listed in wanted regions. -/
def catalogue (g : Setting) : Catalogue Call Answer ListedItem where
  items
    | .listNetworks _, networks => networks.map .network
    | .listSubnetworks _, subnetworks =>
      (subnetworks.filter fun n => wantsRegion g.regions (n.region.getD "")).map .subnetwork
    | .listInstances _ none, zones =>
      (zones.filter fun z => wantsZone g.regions z.zone).flatMap fun z =>
        z.instances.map (.machine z.zone)
    | .listInstances _ (some _), _ => []
    | .listClusters _, clusters => clusters.map .cluster
  type i := i.item.type
  lacks i := Catalogue.blank "id" i.item.id?
  stops i := i.item.id?.isSome && g.stops i.item.selfLink?

/-- Publish an item. -/
def publishListed (g : Setting) (project : String) : ListedItem → Step Nat
  | .network n => publishVpc g project n
  | .subnetwork n => publishSubnet g project n
  | .machine zone i => publishInstance g project zone i
  | .cluster c => publishCluster g project c

variable {g : Setting} {project : String}

theorem publishListed_of_none {i : ListedItem} (h : i.item.id? = none) :
    publishListed g project i = Emitter.skip i.item.type "id" := by
  cases i with
  | network n =>
    have hid : n.id.bind Text.nonEmpty = none := h
    simp only [publishListed, publishVpc, hid, ListedItem.item, Item.type]
  | subnetwork n =>
    have hid : n.id.bind Text.nonEmpty = none := h
    simp only [publishListed, publishSubnet, hid, ListedItem.item, Item.type]
  | machine zone i =>
    have hid : i.id.bind Text.nonEmpty = none := h
    simp only [publishListed, publishInstance, summary?, hid, Option.map_none, ListedItem.item,
      Item.type]
  | cluster c =>
    have hid : c.id.bind Text.nonEmpty = none := h
    simp only [publishListed, publishCluster, hid, ListedItem.item, Item.type]

/-- Keeping something under a link breaks off, and so does all that would follow. -/
theorem keep_bind_of_stops {α : Type} {link : Option String}
    (h : g.stops (link.bind Text.nonEmpty) = true) (get : Caches → Cache α)
    (set : Caches → Cache α → Caches) (value : α) (next : Unit → Step Nat) (s : Caches) :
    ∃ left, (keep g get set link value >>= next) s = .crash left := by
  have hlink : link.bind Text.nonEmpty ≠ none := by
    intro hlink
    simp [Setting.stops, hlink] at h
  have htells : Clock.tells g.now g.ttl = false := by
    simpa using (Bool.and_eq_true_iff.1 h).2
  rcases keep_cases g get set link value with
    ⟨hlink', -⟩ | ⟨l, -, htells', -⟩ | ⟨l, -, -, hkeep⟩
  · exact absurd hlink' hlink
  · rw [htells] at htells'
    cases htells'
  · rw [hkeep]
    exact ⟨_, rfl⟩

theorem publishListed_of_stops {i : ListedItem} {id : String} (hid : i.item.id? = some id)
    (hstops : g.stops i.item.selfLink? = true) (s : Caches) :
    ∃ left, publishListed g project i s = .crash left := by
  cases i with
  | network n =>
    have hid : n.id.bind Text.nonEmpty = some id := hid
    simp only [publishListed, publishVpc, hid]
    exact keep_bind_of_stops hstops _ _ _ _ s
  | subnetwork n =>
    have hid : n.id.bind Text.nonEmpty = some id := hid
    simp only [publishListed, publishSubnet, hid]
    exact keep_bind_of_stops hstops _ _ _ _ s
  | machine zone i =>
    have hid : i.id.bind Text.nonEmpty = some id := hid
    simp only [publishListed, publishInstance, summary?, hid, Option.map_some]
    exact keep_bind_of_stops hstops _ _ _ _ s
  | cluster c => cases hstops

theorem keepsTo_publishListed (i : ListedItem) :
    Work.KeepsTo (g.stops i.item.selfLink? = true) (Call.Looks project)
      (Record.Plain g.emitter.space) (publishListed g project i) := by
  cases i with
  | network n => exact keepsTo_publishVpc n
  | subnetwork n => exact keepsTo_publishSubnet n
  | machine zone i => exact keepsTo_publishInstance zone i
  | cluster c => exact (keepsTo_publishCluster c).mono False.elim fun _ => id

theorem publishes_catalogue : (catalogue g).Publishes (Record.Plain g.emitter.space)
    (publishListed g project) where
  skips i field h := by
    obtain ⟨hid, rfl⟩ := Catalogue.eq_none_of_blank h
    exact publishListed_of_none hid
  breaks i h s := by
    obtain ⟨hid, hstops⟩ := Bool.and_eq_true_iff.1 h
    obtain ⟨id, hid⟩ := Option.isSome_iff_exists.1 hid
    exact publishListed_of_stops hid hstops s
  keeps i := by
    cases hid : i.item.id? with
    | none =>
      rw [publishListed_of_none hid]
      exact Work.keepsTo_skip _ _
    | some id =>
      refine (keepsTo_publishListed i).mono (fun hstops => ?_) fun c hc a => ?_
      · show (i.item.id?.isSome && g.stops i.item.selfLink?) = true
        rw [hid, hstops]
        rfl
      · cases c with
        | listInstances _ filter => cases filter with
          | some _ => rfl
          | none => cases hc.2
        | listNetworks | listSubnetworks | listClusters => exact hc.elim

/-! ### Jobs -/

theorem takes_instancesOf : Work.Takes (catalogue g).Enlarges (instancesOf g project).run := by
  have hpublishes : (catalogue g).Publishes _ (publishListed g project) := publishes_catalogue
  refine hpublishes.takes_askTotal fun zones => Eq.symm ?_
  refine (Work.total_flatMap (publishListed g project) _ _).trans ?_
  exact congrArg (Work.total · _) (funext fun z =>
    Work.total_map (publishListed g project) (ListedItem.machine z.zone) z.instances)

theorem takes_clustersOf : Work.Takes (catalogue g).Enlarges (clustersOf g project).run := by
  have hpublishes : (catalogue g).Publishes _ (publishListed g project) := publishes_catalogue
  exact Work.takes_totalAttempt (fun _ => hpublishes.takes_askTotal fun clusters =>
    (Work.total_map (publishListed g project) ListedItem.cluster clusters).symm) _

/-- The work for a type takes one more item in a listing. -/
theorem takes_workIn {type : AssetType} {collect : String → Try Nat}
    (h : workIn? g type = some collect) (project : String) :
    Work.Takes (catalogue g).Enlarges (collect project).run := by
  have hpublishes : (catalogue g).Publishes _ (publishListed g project) := publishes_catalogue
  unfold workIn? at h
  split at h
  · exact Option.some.inj h ▸ takes_instancesOf
  · obtain rfl := Option.some.inj h
    exact hpublishes.takes_askTotal fun networks =>
      (Work.total_map (publishListed g project) ListedItem.network networks).symm
  · obtain rfl := Option.some.inj h
    exact hpublishes.takes_askTotal fun subnetworks =>
      (Work.total_map (publishListed g project) ListedItem.subnetwork _).symm
  · exact Option.some.inj h ▸ takes_clustersOf
  · cases h

end CloudInventory.Gcp
