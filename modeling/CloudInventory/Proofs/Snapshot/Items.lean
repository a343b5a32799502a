import CloudInventory.Proofs.Aws.Coding
import CloudInventory.Proofs.Azure.Coding
import CloudInventory.Proofs.Gcp.Coding
import CloudInventory.Proofs.Json.Texts
import CloudInventory.Proofs.Kube.Coding

/-!
The items of all providers survive being written and read again. Whatever an item has been read
from (with fields left out or null, numbers for ids, members that are not declared, lists for
structures), the value written for it is read as the same item, and so is the text of this value.
Only what a container waits for may hold numbers that a text does not say exactly.
-/

namespace CloudInventory

/-- The types of the items that providers answer with. -/
inductive ItemType where
  | reservation
  | vpc
  | subnet
  | eksCluster
  | nodegroup
  | autoScalingGroup
  | network
  | subnetwork
  | zoneInstances
  | gkeCluster
  | virtualMachine
  | node
  | pod
  deriving DecidableEq, Repr

namespace ItemType

/-- The items of a type. -/
def Item : ItemType → Type
  | reservation => Aws.Reservation
  | vpc => Aws.Vpc
  | subnet => Aws.Subnet
  | eksCluster => Aws.EksCluster
  | nodegroup => Aws.Nodegroup
  | autoScalingGroup => Aws.AutoScalingGroup
  | network => Gcp.Network
  | subnetwork => Gcp.Subnetwork
  | zoneInstances => Gcp.ZoneInstances
  | gkeCluster => Gcp.GkeCluster
  | virtualMachine => Azure.VirtualMachine
  | node => Kube.Node
  | pod => Kube.Pod

/-- The item of a type that a term says. -/
def decode? : (ty : ItemType) → Term → Option ty.Item
  | reservation => Aws.Reservation.decode?
  | vpc => Aws.Vpc.decode?
  | subnet => Aws.Subnet.decode?
  | eksCluster => Aws.EksCluster.decode?
  | nodegroup => Aws.Nodegroup.decode?
  | autoScalingGroup => Aws.AutoScalingGroup.decode?
  | network => Gcp.Network.decode?
  | subnetwork => Gcp.Subnetwork.decode?
  | zoneInstances => Gcp.ZoneInstances.decode?
  | gkeCluster => Gcp.GkeCluster.decode?
  | virtualMachine => Azure.VirtualMachine.decode?
  | node => Kube.Node.decode?
  | pod => Kube.Pod.decode?

/-- An item as a value. -/
def json : (ty : ItemType) → ty.Item → Json
  | reservation => Aws.Reservation.json
  | vpc => Aws.Vpc.json
  | subnet => Aws.Subnet.json
  | eksCluster => Aws.EksCluster.json
  | nodegroup => Aws.Nodegroup.json
  | autoScalingGroup => Aws.AutoScalingGroup.json
  | network => Gcp.Network.json
  | subnetwork => Gcp.Subnetwork.json
  | zoneInstances => Gcp.ZoneInstances.json
  | gkeCluster => Gcp.GkeCluster.json
  | virtualMachine => Azure.VirtualMachine.json
  | node => Kube.Node.json
  | pod => Kube.Pod.json

/-- A text says the item exactly: what the containers of a pod wait for has no numbers other than
integers. -/
def Exact : (ty : ItemType) → ty.Item → Prop
  | pod => Kube.Pod.FloatFree
  | _ => fun _ => True

/-- What is read is read again from what is written for it; no type has more than six levels of its
own. -/
theorem faithful (ty : ItemType) :
    ∃ levels ≤ 6, Term.Faithful ty.decode? ty.json levels ty.Exact := by
  cases ty with
  | reservation => exact ⟨5, by decide, .of_forall Aws.Reservation.written⟩
  | vpc => exact ⟨3, by decide, .of_forall Aws.Vpc.written⟩
  | subnet => exact ⟨3, by decide, .of_forall Aws.Subnet.written⟩
  | eksCluster => exact ⟨2, by decide, .of_forall Aws.EksCluster.written⟩
  | nodegroup => exact ⟨4, by decide, .of_forall Aws.Nodegroup.written⟩
  | autoScalingGroup => exact ⟨3, by decide, .of_forall Aws.AutoScalingGroup.written⟩
  | network => exact ⟨1, by decide, .of_forall Gcp.Network.written⟩
  | subnetwork => exact ⟨1, by decide, .of_forall Gcp.Subnetwork.written⟩
  | zoneInstances => exact ⟨6, by decide, .of_forall Gcp.ZoneInstances.written⟩
  | gkeCluster => exact ⟨3, by decide, .of_forall Gcp.GkeCluster.written⟩
  | virtualMachine => exact ⟨5, by decide, .of_forall Azure.VirtualMachine.written⟩
  | node => exact ⟨4, by decide, Kube.Node.faithful⟩
  | pod => exact ⟨6, by decide, Kube.Pod.faithful⟩

/-- An item that has been read from a term is read again from the value that is written for it,
and from the text of this value if a text could have said the term. Every term that is read from a
text is one that a text can say. -/
theorem survives (ty : ItemType) :
    (∀ t i, ty.decode? t = some i → ty.decode? (ty.json i).term = some i) ∧
      (∀ t i, t.Within Term.nesting → ty.decode? t = some i → ty.Exact i →
        (Term.read? (ty.json i).render).bind ty.decode? = some i) ∧
      ∀ text t, Term.read? text = some t → t.Within Term.nesting := by
  obtain ⟨levels, hlevels, hfaithful⟩ := ty.faithful
  refine ⟨fun t i h => (hfaithful h).1, fun t i ht h hexact => ?_, fun _ _ => Term.within_of_read?⟩
  have hroom : Term.nesting = Term.nesting - levels + levels := by
    have : (6 : Nat) ≤ Term.nesting := by decide
    omega
  have hfits : (ty.json i).Fits Term.nesting := by
    rw [hroom] at ht ⊢
    exact (hfaithful h).2 _ ht hexact
  rw [Term.read?_render hfits, Option.bind_some]
  exact (hfaithful h).1

/-- A pod that says little: a list for its status, no metadata, a leap second with an offset, names
out of order, and members that are not declared. -/
def sparsePod : Term :=
  .obj [("kind", .str "Pod"), ("status", .arr [.str "2024-05-01 12:00:60+02:00",
    .arr [.obj [("state", .obj [("waiting", .obj [("b", .num (.int 1)), ("a", .arr [])]),
      ("cpu", .num (.real (.zero false)))])]]])]

/-- What `sparsePod` says. -/
def sparsePodItem : Kube.Pod where
  metadata := .blank
  spec := ⟨""⟩
  status :=
    { startTime := some ⟨1714557659, 1000000000⟩
      containerStatuses :=
        [⟨"", "", some (.obj [("a", .arr []), ("b", .num (.int 1))]), none, none⟩]
      initContainerStatuses := [] }

theorem sparsePod_survives : sparsePod.Within Term.nesting ∧
    pod.decode? sparsePod = some sparsePodItem ∧ pod.Exact sparsePodItem ∧
    pod.decode? (pod.json sparsePodItem).term = some sparsePodItem ∧
    (Term.read? (pod.json sparsePodItem).render).bind pod.decode? = some sparsePodItem := by
  have hwithin : sparsePod.Within Term.nesting := by
    simp [sparsePod, Term.nesting, Term.Within, Term.ItemsWithin, Term.MembersWithin, Number.Small]
  have hdecode : Kube.Pod.decode? sparsePod = some sparsePodItem := by decide +kernel
  have hexact : sparsePodItem.FloatFree := by
    simp [Kube.Pod.FloatFree, Kube.Pod.containers, Kube.ContainerState.FloatFree, sparsePodItem,
      Json.FloatFree, Json.FloatFreeMembers, Json.FloatFreeItems]
  obtain ⟨hvalue, htext, -⟩ := survives pod
  exact ⟨hwithin, hdecode, hexact, hvalue sparsePod sparsePodItem hdecode,
    htext sparsePod sparsePodItem hwithin hdecode hexact⟩

end ItemType

end CloudInventory
