/-!
The closed vocabulary of an inventory: who an asset was collected from, the coarse kinds, and the
types, each with the text that stands for it in documents, configurations and destinations. No two
values of a vocabulary share a text (`AssetKind.ofText?_text` and its siblings).
-/

namespace CloudInventory

/-- Whom an asset was collected from. -/
inductive Provider where
  | aws
  | gcp
  | azure
  | kube
  deriving DecidableEq, Repr

/-- The coarse kind of an asset; the left half of its EAN. -/
inductive AssetKind where
  | host
  | network
  | cluster
  | containerGroup
  | container
  deriving DecidableEq, Repr

/-- The type of an asset. -/
inductive AssetType where
  | ec2Instance
  | awsVpc
  | awsSubnet
  | gceInstance
  | gcpVpc
  | gcpSubnet
  | azureVm
  | cluster
  | node
  | pod
  | container
  deriving DecidableEq, Repr

namespace Provider

/-- The text that stands for a provider. -/
def text : Provider → String
  | aws => "aws"
  | gcp => "gcp"
  | azure => "azure"
  | kube => "k8s"

/-- Every provider. -/
def all : List Provider := [aws, gcp, azure, kube]

/-- The provider with the given text. -/
def ofText? (s : String) : Option Provider := all.find? fun p => p.text = s

/-- The types a provider has, in the order in which they are collected. -/
def types : Provider → List AssetType
  | aws => [.ec2Instance, .awsVpc, .awsSubnet, .cluster]
  | gcp => [.gceInstance, .gcpVpc, .gcpSubnet, .cluster]
  | azure => [.azureVm]
  | kube => [.node, .pod, .container]

theorem ofText?_text (p : Provider) : ofText? p.text = some p := by cases p <;> decide

end Provider

namespace AssetKind

/-- The text that stands for a kind. -/
def text : AssetKind → String
  | host => "host"
  | network => "network"
  | cluster => "cluster"
  | containerGroup => "container_group"
  | container => "container"

/-- Every kind, in ascending order. -/
def all : List AssetKind := [host, network, cluster, containerGroup, container]

/-- The kind with the given text. -/
def ofText? (s : String) : Option AssetKind := all.find? fun k => k.text = s

/-- The place of a kind in the order of kinds. -/
def rank : AssetKind → Nat
  | host => 0
  | network => 1
  | cluster => 2
  | containerGroup => 3
  | container => 4

theorem ofText?_text (k : AssetKind) : ofText? k.text = some k := by cases k <;> decide

end AssetKind

namespace AssetType

/-- The text that stands for a type. -/
def text : AssetType → String
  | ec2Instance => "aws.ec2.instance"
  | awsVpc => "aws.vpc"
  | awsSubnet => "aws.subnet"
  | gceInstance => "gcp.compute.instance"
  | gcpVpc => "gcp.vpc"
  | gcpSubnet => "gcp.subnet"
  | azureVm => "azure.vm.instance"
  | cluster => "k8s.cluster"
  | node => "k8s.node"
  | pod => "k8s.pod"
  | container => "k8s.container"

/-- Every type. -/
def all : List AssetType :=
  [ec2Instance, awsVpc, awsSubnet, gceInstance, gcpVpc, gcpSubnet, azureVm, cluster, node, pod,
    container]

/-- The type with the given text. -/
def ofText? (s : String) : Option AssetType := all.find? fun t => t.text = s

/-- The kind that every asset of a type has. -/
def kind : AssetType → AssetKind
  | ec2Instance | gceInstance | azureVm | node => .host
  | awsVpc | awsSubnet | gcpVpc | gcpSubnet => .network
  | cluster => .cluster
  | pod => .containerGroup
  | container => .container

theorem ofText?_text (t : AssetType) : ofText? t.text = some t := by cases t <;> decide

theorem mem_all (t : AssetType) : t ∈ all := by cases t <;> decide

end AssetType

end CloudInventory
