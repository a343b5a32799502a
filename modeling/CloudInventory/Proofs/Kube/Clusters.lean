import CloudInventory.Proofs.Kube.Parents

/-!
Which nodes are given their cluster. The cluster is looked up once for all nodes of a store, and
only if the node under the least key runs on Google Cloud. So what a node is given hangs on that
node, and not on itself. The main statement says when it comes to the same for the nodes on Google
Cloud.
-/

namespace CloudInventory.Kube

/-! ### The node that leads a store -/

/-- A node is kept under the least of all keys. -/
def Stores.Leads (s : Stores) (n : Node) : Prop :=
  ∃ key, s.nodes.get? key = some n ∧ ∀ other n', s.nodes.get? other = some n' → key ≤ other

/-- The node under the least key runs on Google Cloud. -/
def Stores.LedByGce (s : Stores) : Prop := ∃ n, s.Leads n ∧ n.cloud = .gce

theorem Stores.ledByGce_iff {s : Stores} :
    s.LedByGce ↔ ∃ first, s.nodes.values.head? = some first ∧ first.cloud = .gce := by
  simp only [LedByGce, Leads, Dict.head?_values_eq_some_iff]

/-! ### What the lookup finds -/

/-- The lookup of metadata is answered, they speak of the cluster `u`, and shutdown does not come.
-/
structure Conditions.Knows (c : Conditions) (u : String) : Prop where
  told : ∃ metadata, c.world.answer 0 .metadata = .ok metadata ∧ clusterUid? metadata = some u
  calm : c.world.signal 0 .metadata = none
  going : c.cancelled = false

variable {c : Conditions} {u : String}

theorem Conditions.Knows.ask_eq (hc : c.Knows u) : ∃ metadata, clusterUid? metadata = some u ∧
    ((Session.start c.cancelled).ask c.world .metadata).1 = .ok metadata := by
  obtain ⟨metadata, hanswer, huid⟩ := hc.told
  refine ⟨metadata, huid, ?_⟩
  simp [Session.ask, Session.start, hc.going, hc.calm, hanswer]

/-- The cluster is found exactly if the first of the nodes runs on Google Cloud. -/
theorem Conditions.Knows.ensures_clusterParent (hc : c.Knows u) (nodes : List Node) :
    Work.Ensures c.world (fun _ _ => False) (clusterParent true nodes) () (.start c.cancelled)
      fun cluster _ t' => t'.records = [] ∧
        ∀ ean, cluster = some ean ↔
          ean = ⟨.cluster, u⟩ ∧ ∃ first, nodes.head? = some first ∧ first.cloud = .gce := by
  unfold clusterParent
  split
  case h_1 => exact Work.ensures_pure ⟨rfl, by simp⟩
  case h_2 first rest =>
    split
    case isFalse hcloud => exact Work.ensures_pure ⟨rfl, by simpa using hcloud⟩
    case isTrue hcloud =>
      obtain ⟨metadata, huid, hask⟩ := hc.ask_eq
      refine Work.ensures_bind (Work.ensures_ask ?_)
      rw [hask]
      show Work.Ensures _ _ (clusterOf metadata) _ _ _
      unfold clusterOf
      rw [huid]
      exact Work.ensures_pure ⟨Session.ask_records, by simp [hcloud.2, eq_comm]⟩

/-! ### Records -/

/-- The record of every node on Google Cloud has the cluster `u` as a parent. -/
def GivesCluster (u : String) (nodes : List Node) (records : List Record) : Prop :=
  ∀ p ∈ nodes.zip records, p.1.cloud = .gce → ⟨.cluster, u⟩ ∈ p.2.parents

theorem givesCluster_iff {P : Prop} : ∀ {nodes : List Node} {records : List Record},
    List.Forall₂ (fun _ r => ⟨.cluster, u⟩ ∈ r.parents ↔ P) nodes records →
      (GivesCluster u nodes records ↔ ((∃ n ∈ nodes, n.cloud = .gce) → P))
  | _, _, .nil => by simp [GivesCluster]
  | _, _, .cons hr hrest => by
    have ih := givesCluster_iff hrest
    unfold GivesCluster at ih ⊢
    rw [List.zip_cons_cons, List.forall_mem_cons, ih, hr]
    simp only [List.mem_cons, exists_eq_or_imp]
    exact or_imp.symm

/-- CORRECT: where metadata speak of a cluster, it is the only parent of all nodes of a store if the
node under the least key runs on Google Cloud, and otherwise no node has a parent. So every node on
Google Cloud is given its cluster exactly if there is none or the one under the least key is one. -/
theorem givesCluster_iff_led (hc : c.Knows u) (s : Stores) :
    ∃ records, c.Hands (collectNodes · true s) records ∧
      List.Forall₂ (fun n r => r.type = some .node ∧ r.ean = some ⟨.host, n.metadata.uid⟩ ∧
          (s.LedByGce → r.parents = [⟨.cluster, u⟩]) ∧ (¬ s.LedByGce → r.parents = []))
        s.knownNodes records ∧
      (GivesCluster u s.knownNodes records ↔
        ((∃ n ∈ s.knownNodes, n.cloud = .gce) → s.LedByGce)) := by
  obtain ⟨records, hhands, cluster, hcluster, hnodes⟩ :=
    hands_nodes_of (hc.ensures_clusterParent s.nodes.values)
  rw [← Stores.ledByGce_iff] at hcluster
  have hfound : s.LedByGce → cluster = some ⟨.cluster, u⟩ := fun h => (hcluster _).2 ⟨rfl, h⟩
  have hnone : ¬ s.LedByGce → cluster = none := fun h =>
    Option.eq_none_iff_forall_ne_some.2 fun ean he => h ((hcluster ean).1 he).2
  refine ⟨records, hhands, hnodes.imp fun n r hr => ?_,
    givesCluster_iff (hnodes.imp fun n r hr => ?_)⟩
  · refine ⟨hr.type, hr.ean, fun h => ?_, fun h => ?_⟩
    · rw [hr.parents, hfound h]
      rfl
    · rw [hr.parents, hnone h]
      rfl
  · rw [hr.parents]
    constructor
    · intro hmem
      exact ((hcluster _).1 (Option.mem_toList.1 hmem)).2
    · intro h
      rw [hfound h]
      exact List.mem_singleton_self _

/-! ### A node that is not on Google Cloud yet -/

/-- A node with a name and the id that its provider has given it, which may be empty. -/
def namedNode (name providerId : String) : Node :=
  ⟨⟨name, "", "uid-" ++ name, none, .empty⟩, ⟨providerId⟩, ⟨[]⟩⟩

/-- A node on Google Cloud is kept under a key that follows the one of a node which has no id from
its provider so far. -/
def newNodeFirst : Stores :=
  .applyAll .empty
    [⟨.added, .node (namedNode "a" "")⟩, ⟨.added, .node (namedNode "b" "gce://p/z/b")⟩]

/-- Metadata of the cluster `u`. -/
def metadataOfU : Json :=
  .obj [("instance", .obj [("attributes", .obj [("cluster-uid", .str "u")])])]

/-- The metadata are at hand, and nothing goes wrong. -/
def calmly : Conditions where
  emitter := ⟨.epoch, none⟩
  world := ⟨fun _ c => match c with | .metadata => .ok metadataOfU, fun _ _ => none⟩
  cancelled := false

theorem calmly_knows : calmly.Knows "u" :=
  ⟨⟨metadataOfU, rfl, by decide +kernel⟩, rfl, rfl⟩

/-- The node on Google Cloud is published without its cluster. -/
theorem not_givesCluster_newNodeFirst : calmly.Knows "u" ∧
    ∃ records, calmly.Hands (collectNodes · true newNodeFirst) records ∧
      records.map Record.parents = [[], []] ∧
      ¬ GivesCluster "u" newNodeFirst.knownNodes records := by
  have hknown : newNodeFirst.knownNodes = [namedNode "a" "", namedNode "b" "gce://p/z/b"] := by
    decide +kernel
  have hled : ¬ newNodeFirst.LedByGce := by
    rw [Stores.ledByGce_iff]
    decide +kernel
  obtain ⟨records, hhands, hnodes, hiff⟩ := givesCluster_iff_led calmly_knows newNodeFirst
  refine ⟨calmly_knows, records, hhands, ?_, fun hgives => ?_⟩
  · rw [hknown] at hnodes
    obtain _ | ⟨ha, _ | ⟨hb, _ | _⟩⟩ := hnodes
    rw [List.map_cons, List.map_cons, List.map_nil, ha.2.2.2 hled, hb.2.2.2 hled]
  · refine hled (hiff.1 hgives ⟨namedNode "b" "gce://p/z/b", ?_, by decide +kernel⟩)
    rw [hknown]
    simp

end CloudInventory.Kube
