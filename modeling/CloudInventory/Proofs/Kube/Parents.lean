import CloudInventory.Proofs.Kube.Cancellation
import CloudInventory.Proofs.Program.Delivers
import CloudInventory.Proofs.Record.Slots
import CloudInventory.Proofs.Text.Fields

/-!
The edges of Kubernetes records. Nodes, pods and containers are published by three jobs, which read
two stores with different keys and pass over different objects. The main statement says that the
edges agree all the same: a parent is always the name of a record that another job publishes from
the same stores, and nothing in the stores is lost or published twice.
-/

namespace CloudInventory

/-! ### Described records -/

namespace Patch

/-- The patch says nothing of what an asset is and of its edges. -/
def IsDetail (p : Patch) : Prop :=
  p.sets .identity = none ∧ p.sets .type = none ∧ p.sets .parents = none

theorem isDetail_maybeName (name : Option String) : ∀ p ∈ maybeName name, p.IsDetail := by
  rcases maybeName_cases name with h | ⟨s, h⟩ <;> simp [h, IsDetail, sets]

end Patch

namespace Record

open Patch

/-- A record is that of the asset with a type and an id, and has a parent or none. -/
structure IsOf (t : AssetType) (id : String) (parent : Option Ean) (r : Record) : Prop where
  type : r.type = some t
  ean : r.ean = some ⟨t.kind, id⟩
  parents : r.parents = parent.toList

/-- A description of an asset by details and at most one parent. -/
theorem isOf_compose (stamp : Instant) (type : AssetType) (id : String) (space : Option String)
    {details : List Patch} (h : ∀ p ∈ details, p.IsDetail) (parent : Option Ean) :
    IsOf type id parent (compose stamp (typed type id space ++
      (details ++ parent.toList.map fun ean => .parents [ean]))) := by
  have hpart (s : Slot) (hnone : ∀ p ∈ details, p.sets s = none) :
      (compose stamp (typed type id space ++
        (details ++ parent.toList.map fun ean => .parents [ean]))).part s =
      ((lastIn? s (parent.toList.map fun ean => .parents [ean])).or
        (lastIn? s (typed type id space))).getD ((blank stamp).part s) := by
    rw [compose, part_foldl, lastIn?_append, lastIn?_append, lastIn?_eq_none hnone, Option.or_none]
  have htype := hpart .type fun p hp => (h p hp).2.1
  have hidentity := hpart .identity fun p hp => (h p hp).1
  have hparents := hpart .parents fun p hp => (h p hp).2.2
  refine ⟨?_, ?_, ?_⟩
  · cases parent <;> exact htype
  · cases parent <;> exact congrArg (·.2.2) hidentity
  · cases parent <;> exact hparents

end Record

namespace Kube

/-! ### What is in the stores -/

/-- The nodes with ids, in the order of their keys. -/
def Stores.knownNodes (s : Stores) : List Node :=
  s.nodes.values.filter fun n => n.metadata.uid ≠ ""

/-- The pods with ids, in the order of their keys. -/
def Stores.knownPods (s : Stores) : List Pod :=
  s.pods.values.filter fun p => p.metadata.uid ≠ ""

/-- The id that its runtime has given a container: what stands behind the first mark in the text
that names it, or all of the text if there is no mark. -/
def ContainerStatus.HasRuntimeId (c : ContainerStatus) (id : String) : Prop :=
  id ≠ "" ∧ ((∃ runtime, Text.CutAtFirst "://" c.containerId runtime id) ∨
    (∀ front rest, c.containerId ≠ front ++ "://" ++ rest) ∧ c.containerId = id)

theorem ContainerStatus.runtimeId?_eq_some_iff {c : ContainerStatus} {id : String} :
    c.runtimeId? = some id ↔ c.HasRuntimeId id := by
  unfold runtimeId? HasRuntimeId
  simp only [← Text.cutAt_eq_some_iff, ← Text.cutAt_eq_none_iff]
  cases Text.cutAt "://" c.containerId with
  | none => simp [Text.nonEmpty_eq_some_iff, and_comm]
  | some parts =>
    obtain ⟨runtime, rest⟩ := parts
    simp [Text.nonEmpty_eq_some_iff, and_comm]

/-- Only the first mark counts. -/
example : ContainerStatus.HasRuntimeId ⟨"", "docker://a://b", .blank⟩ "a://b" :=
  ContainerStatus.runtimeId?_eq_some_iff.1 (by decide +kernel)

/-- A container has been created. -/
def ContainerStatus.Created (c : ContainerStatus) : Prop := ∃ id, c.HasRuntimeId id

theorem ContainerStatus.isSome_runtimeId?_iff {c : ContainerStatus} :
    c.runtimeId?.isSome = true ↔ c.Created := by
  rw [Option.isSome_iff_exists]
  exact exists_congr fun _ => runtimeId?_eq_some_iff

instance (c : ContainerStatus) : Decidable c.Created :=
  decidable_of_iff (c.runtimeId?.isSome = true) ContainerStatus.isSome_runtimeId?_iff

/-- The containers of a pod that have been created, those that prepare it last. -/
def Pod.created (p : Pod) : List (Pod × ContainerStatus) :=
  ((p.status.containerStatuses ++ p.status.initContainerStatuses).filter
    fun c => c.Created).map (Prod.mk p)

/-- The containers that have been created, of the pods with ids, each with its pod. -/
def Stores.created (s : Stores) : List (Pod × ContainerStatus) := s.knownPods.flatMap Pod.created

theorem filter_eq_flatMap {α : Type} (q : α → Bool) (as : List α) :
    as.filter q = as.flatMap fun a => if q a then [a] else [] := by
  induction as with
  | nil => rfl
  | cons a as ih => cases h : q a <;> simp [h, ih]

theorem Stores.created_eq (s : Stores) :
    s.created = s.pods.values.flatMap fun p => if p.metadata.uid = "" then [] else p.created := by
  rw [created, knownPods, filter_eq_flatMap, List.flatMap_assoc]
  refine List.flatMap_congr fun p _ => ?_
  by_cases hp : p.metadata.uid = "" <;> simp [hp]

/-! ### Deliveries -/

variable {w : World Call Answer} {e : Emitter} {s : Stores}

/-- What the record of a node is that is given a cluster or none. -/
def IsNodeOf (cluster : Option Ean) (n : Node) (r : Record) : Prop :=
  r.IsOf .node n.metadata.uid cluster

/-- What the record of a node is, whatever cluster the node belongs to. -/
def IsNode (n : Node) (r : Record) : Prop := ∃ cluster, IsNodeOf cluster n r

/-- What the record of a pod is. -/
def IsPod (s : Stores) (p : Pod) (r : Record) : Prop := r.IsOf .pod p.metadata.uid (hostOf? s p)

/-- What the record of a container of a pod is. -/
def IsContainer (c : Pod × ContainerStatus) (r : Record) : Prop :=
  ∃ id, c.2.HasRuntimeId id ∧
    r.IsOf .container id (some ⟨.containerGroup, c.1.metadata.uid⟩)

theorem delivers_node (cluster : Option Ean) (n : Node) :
    Work.Delivers w (IsNodeOf cluster) (publishNode e cluster n)
      (if n.metadata.uid ≠ "" then [n] else []) := by
  unfold publishNode Text.nonEmpty
  by_cases huid : n.metadata.uid = ""
  · rw [if_pos huid, if_neg (not_not.2 huid)]
    exact Work.delivers_skip _ _
  · rw [if_neg huid, if_pos huid]
    refine Work.delivers_emit (Record.isOf_compose _ _ _ _ ?_ cluster)
    simp only [List.forall_mem_append]
    refine ⟨⟨⟨Patch.isDetail_maybeName _, ?_⟩, ?_⟩, ?_⟩
    · simp [Patch.IsDetail, Patch.entry, Patch.sets]
    · simp [Patch.IsDetail, Patch.nodeData, Patch.sets]
    · simp [Patch.IsDetail, Patch.cloudInstanceId, Patch.sets]

theorem delivers_pod (p : Pod) :
    Work.Delivers w (IsPod s) (publishPod e s p) (if p.metadata.uid ≠ "" then [p] else []) := by
  unfold publishPod Text.nonEmpty
  by_cases huid : p.metadata.uid = ""
  · rw [if_pos huid, if_neg (not_not.2 huid)]
    exact Work.delivers_skip _ _
  · rw [if_neg huid, if_pos huid]
    refine Work.delivers_emit (Record.isOf_compose _ _ _ _ ?_ (hostOf? s p))
    simp only [List.forall_mem_append]
    exact ⟨Patch.isDetail_maybeName _, by simp [Patch.IsDetail, Patch.podData, Patch.sets]⟩

theorem delivers_container (p : Pod) (c : ContainerStatus) :
    Work.Delivers w IsContainer (publishContainer e p c)
      (if c.Created then [(p, c)] else []) := by
  unfold publishContainer
  cases hid : c.runtimeId? with
  | none =>
    have hnone : ¬ c.Created := by
      rw [← ContainerStatus.isSome_runtimeId?_iff, hid]
      exact Bool.false_ne_true
    rw [if_neg hnone]
    exact Work.delivers_nothing
  | some id =>
    have hid' := ContainerStatus.runtimeId?_eq_some_iff.1 hid
    rw [if_pos ⟨id, hid'⟩]
    refine Work.delivers_emit ⟨id, hid', Record.isOf_compose _ _ _ _ ?_ (some _)⟩
    simp only [List.forall_mem_append]
    exact ⟨Patch.isDetail_maybeName _, by simp [Patch.IsDetail, Patch.containerData, Patch.sets]⟩

theorem delivers_containers (p : Pod) :
    Work.Delivers w IsContainer (publishContainers e p)
      (if p.metadata.uid = "" then [] else p.created) := by
  unfold publishContainers
  split
  case isTrue => exact Work.delivers_nothing
  case isFalse =>
    rw [Pod.created, filter_eq_flatMap, List.map_flatMap]
    refine Work.delivers_total fun c _ => ?_
    have hitems : List.map (Prod.mk p) (if decide c.Created = true then [c] else []) =
        if c.Created then [(p, c)] else [] := by
      by_cases hc : c.Created <;> simp [hc]
    rw [hitems]
    exact delivers_container p c

/-! ### Runs -/

/-- How a job is run: what makes its records, what answers its calls, and whether shutdown has been
signalled before. -/
structure Conditions where
  emitter : Emitter
  world : World Call Answer
  cancelled : Bool

/-- A job ends under the conditions, with a success that is the number of its records, and these are
its records. -/
def Conditions.Hands (c : Conditions) (job : Emitter → Try Nat) (records : List Record) : Prop :=
  ∃ t, ((job c.emitter).run.run ()).run c.world (.start c.cancelled) =
      (.result (.ok records.length, ()), t) ∧ t.records = records

theorem Conditions.hands_of_ensures {c : Conditions} {job : Emitter → Try Nat}
    {V : List Record → Prop}
    (h : Work.Ensures c.world (fun _ _ => False) (job c.emitter).run () (.start c.cancelled)
      fun r _ t' => r = .ok t'.records.length ∧ V t'.records) :
    ∃ records, c.Hands job records ∧ V records := by
  obtain ⟨_, ⟨⟩, t', hended, rfl, hV⟩ := h.exists_result
  exact ⟨t'.records, ⟨t', hended, rfl⟩, hV⟩

/-- A job that begins with looking something up and then goes through the stores. -/
theorem Conditions.hands_of_delivers {c : Conditions} {ι : Type} {Describes : ι → Record → Prop}
    {m : Step Nat} {items : List ι} (h : Work.Delivers c.world Describes m items)
    {t : Session Call} (ht : t.records = []) :
    Work.Ensures c.world (fun _ _ => False) (monadLift m : Try Nat).run () t fun r _ t' =>
      r = .ok t'.records.length ∧ List.Forall₂ Describes items t'.records := by
  refine Work.ensures_lift ((h () t).mono ?_)
  rintro n ⟨⟩ t' ⟨new, hnew, rfl, hitems⟩
  rw [ht, List.nil_append] at hnew
  rw [hnew]
  exact ⟨rfl, hitems⟩

/-- All nodes are given what the lookup has found. -/
theorem hands_nodes_of {c : Conditions} {fetches : Bool} {s : Stores} {U : Option Ean → Prop}
    (h : Work.Ensures c.world (fun _ _ => False) (clusterParent fetches s.nodes.values) ()
      (.start c.cancelled) fun cluster _ t' => t'.records = [] ∧ U cluster) :
    ∃ records, c.Hands (collectNodes · fetches s) records ∧
      ∃ cluster, U cluster ∧ List.Forall₂ (IsNodeOf cluster) s.knownNodes records := by
  refine Conditions.hands_of_ensures (V := fun records =>
    ∃ cluster, U cluster ∧ List.Forall₂ (IsNodeOf cluster) s.knownNodes records) ?_
  refine Work.ensures_attempt (Work.ensures_lift (h.mono ?_))
  rintro cluster ⟨⟩ t' ⟨hrecords, hcluster⟩
  have hitems : s.knownNodes = s.nodes.values.flatMap fun n =>
      if n.metadata.uid ≠ "" then [n] else [] := by
    simp [Stores.knownNodes, filter_eq_flatMap]
  rw [hitems]
  refine (Conditions.hands_of_delivers (Work.delivers_total fun n _ => delivers_node cluster n)
    hrecords).mono ?_
  exact fun _ _ _ ⟨hresult, hnodes⟩ => ⟨hresult, cluster, hcluster, hnodes⟩

theorem hands_nodes (c : Conditions) (fetches : Bool) (s : Stores) :
    ∃ records, c.Hands (collectNodes · fetches s) records ∧
      List.Forall₂ IsNode s.knownNodes records := by
  have hcluster : Account.LearnsNothing c.world (fun _ _ => [])
      (clusterParent fetches s.nodes.values) := learns_clusterParent _
  obtain ⟨records, hhands, cluster, -, hnodes⟩ := hands_nodes_of (U := fun _ => True)
    ((hcluster () _).mono fun _ _ _ hnothing => ⟨hnothing.1, trivial⟩)
  exact ⟨records, hhands, hnodes.imp fun _ _ hr => ⟨cluster, hr⟩⟩

theorem hands_pods (c : Conditions) (s : Stores) :
    ∃ records, c.Hands (collectPods · s) records ∧
      List.Forall₂ (IsPod s) s.knownPods records := by
  refine Conditions.hands_of_ensures ?_
  have hitems : s.knownPods = s.pods.values.flatMap fun p =>
      if p.metadata.uid ≠ "" then [p] else [] := by
    simp [Stores.knownPods, filter_eq_flatMap]
  rw [hitems]
  exact Conditions.hands_of_delivers (Work.delivers_total fun p _ => delivers_pod p) rfl

theorem hands_containers (c : Conditions) (s : Stores) :
    ∃ records, c.Hands (collectContainers · s) records ∧
      List.Forall₂ IsContainer s.created records := by
  refine Conditions.hands_of_ensures ?_
  rw [Stores.created_eq]
  exact Conditions.hands_of_delivers (Work.delivers_total fun p _ => delivers_containers p) rfl

/-! ### Edges between the records of jobs -/

/-- The only parent in a record is the name of the record of `a`. -/
def OnlyParent {α : Type} (published : List (α × Record)) (a : α) (r : Record) : Prop :=
  ∃ r' parent, (a, r') ∈ published ∧ r'.ean = some parent ∧ r.parents = [parent]

theorem exists_mem_zip {α β : Type} {R : α → β → Prop} {as : List α} {bs : List β}
    (h : List.Forall₂ R as bs) {a : α} (ha : a ∈ as) : ∃ b, (a, b) ∈ as.zip bs ∧ R a b := by
  induction h with
  | nil => cases ha
  | @cons x y xs ys hxy _ ih =>
    rcases List.mem_cons.1 ha with rfl | ha
    · exact ⟨y, List.mem_cons_self, hxy⟩
    · obtain ⟨b, hb, hR⟩ := ih ha
      exact ⟨b, List.mem_cons_of_mem _ hb, hR⟩

/-- A node under some key that has an id is among those that are published. -/
theorem mem_knownNodes {n : Node} {key : String} (hget : s.nodes.get? key = some n)
    (huid : n.metadata.uid ≠ "") : n ∈ s.knownNodes := by
  have hvalues : n ∈ s.nodes.values :=
    List.mem_map.2 ⟨(key, n), Dict.get?_eq_some_iff.1 hget, rfl⟩
  exact List.mem_filter.2 ⟨hvalues, decide_eq_true huid⟩

theorem hostOf?_of_node {p : Pod} {n : Node} (hget : s.nodes.get? p.spec.nodeName = some n)
    (huid : n.metadata.uid ≠ "") : hostOf? s p = some ⟨.host, n.metadata.uid⟩ := by
  simp [hostOf?, hget, Text.nonEmpty, huid]

theorem hostOf?_eq_none {p : Pod}
    (h : ∀ n, s.nodes.get? p.spec.nodeName = some n → n.metadata.uid = "") :
    hostOf? s p = none := by
  cases hget : s.nodes.get? p.spec.nodeName with
  | none => simp [hostOf?, hget]
  | some n => simp [hostOf?, hget, Text.nonEmpty, h n hget]

/-- CORRECT: whatever the stores hold and however the three jobs are run, each publishes one record
for every object that it is for, in the order of the keys, and answers how many: for every node and
every pod with an id, and for every container that has been given an id of every pod with an id,
those last that prepare the pod. A pod has a parent exactly if a node with an id is kept under the
name of its node, and that is the name of the record that is published for the node. The only parent
of a container is the name of the record that is published for its pod. -/
theorem edges_published (s : Stores) (fetches : Bool) (atNodes atPods atContainers : Conditions) :
    ∃ ns ps cs, atNodes.Hands (collectNodes · fetches s) ns ∧
      atPods.Hands (collectPods · s) ps ∧ atContainers.Hands (collectContainers · s) cs ∧
      List.Forall₂ (fun n r => r.type = some .node ∧ r.ean = some ⟨.host, n.metadata.uid⟩)
        s.knownNodes ns ∧
      List.Forall₂ (fun p r =>
          r.type = some .pod ∧ r.ean = some ⟨.containerGroup, p.metadata.uid⟩ ∧
          (∀ n, s.nodes.get? p.spec.nodeName = some n → n.metadata.uid ≠ "" →
            OnlyParent (s.knownNodes.zip ns) n r) ∧
          ((∀ n, s.nodes.get? p.spec.nodeName = some n → n.metadata.uid = "") → r.parents = []))
        s.knownPods ps ∧
      List.Forall₂ (fun c r => r.type = some .container ∧
          (∃ id, c.2.HasRuntimeId id ∧ r.ean = some ⟨.container, id⟩) ∧
          OnlyParent (s.knownPods.zip ps) c.1 r)
        s.created cs := by
  obtain ⟨ns, hns, hnodes⟩ := hands_nodes atNodes fetches s
  obtain ⟨ps, hps, hpods⟩ := hands_pods atPods s
  obtain ⟨cs, hcs, hcontainers⟩ := hands_containers atContainers s
  refine ⟨ns, ps, cs, hns, hps, hcs, hnodes.imp ?_, hpods.imp ?_, ?_⟩
  · rintro n r ⟨cluster, hr⟩
    exact ⟨hr.type, hr.ean⟩
  · intro p r hr
    refine ⟨hr.type, hr.ean, fun n hget huid => ?_, fun hnone => ?_⟩
    · obtain ⟨rn, hmem, cluster, hrn⟩ := exists_mem_zip hnodes (mem_knownNodes hget huid)
      exact ⟨rn, _, hmem, hrn.ean, by rw [hr.parents, hostOf?_of_node hget huid]; rfl⟩
    · rw [hr.parents, hostOf?_eq_none hnone]
      rfl
  · have hpublished : ∀ c ∈ s.created, c.1 ∈ s.knownPods := by
      rintro c hc
      obtain ⟨p, hp, hc⟩ := List.mem_flatMap.1 hc
      obtain ⟨status, -, rfl⟩ := List.mem_map.1 hc
      exact hp
    refine ((List.forall₂_and_left _ _).2 ⟨hpublished, hcontainers⟩).imp ?_
    rintro c r ⟨hpod, id, hid, hr⟩
    refine ⟨hr.type, ⟨id, hid, hr.ean⟩, ?_⟩
    obtain ⟨rp, hmem, hrp⟩ := exists_mem_zip hpods hpod
    exact ⟨rp, _, hmem, hrp.ean, hr.parents⟩

end Kube

end CloudInventory
