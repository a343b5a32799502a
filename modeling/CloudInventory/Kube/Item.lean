import CloudInventory.Instant
import CloudInventory.Json.Decoder
import CloudInventory.Text.Split

/-!
Kubernetes objects: nodes and pods, as far as an inventory needs them. Each is read from the form
of the server's answers and written back in full.
-/

namespace CloudInventory.Kube

/-- What all objects have. -/
structure ObjectMeta where
  name : String
  space : String
  uid : String
  creationTimestamp : Option Instant
  annotations : Dict String
  deriving DecidableEq

/-- What is wanted of a node. -/
structure NodeSpec where
  providerId : String
  deriving DecidableEq, Repr

/-- A condition of a node. -/
structure NodeCondition where
  type : String
  status : String
  deriving DecidableEq, Repr

/-- How a node is. -/
structure NodeStatus where
  conditions : List NodeCondition
  deriving DecidableEq, Repr

/-- A node. -/
structure Node where
  metadata : ObjectMeta
  spec : NodeSpec
  status : NodeStatus
  deriving DecidableEq

/-- What is wanted of a pod. -/
structure PodSpec where
  nodeName : String
  deriving DecidableEq, Repr

/-- A state that has begun. -/
structure StartedState where
  startedAt : Option Instant
  deriving DecidableEq, Repr

/-- The state of a container. What it waits for is not looked into. -/
structure ContainerState where
  waiting : Option Json
  running : Option StartedState
  terminated : Option StartedState
  deriving DecidableEq

/-- How a container is. -/
structure ContainerStatus where
  name : String
  containerId : String
  state : ContainerState
  deriving DecidableEq

/-- How a pod is. -/
structure PodStatus where
  startTime : Option Instant
  containerStatuses : List ContainerStatus
  initContainerStatuses : List ContainerStatus
  deriving DecidableEq

/-- A pod. -/
structure Pod where
  metadata : ObjectMeta
  spec : PodSpec
  status : PodStatus
  deriving DecidableEq

/-- Nothing is known of an object. -/
def ObjectMeta.blank : ObjectMeta := ⟨"", "", "", none, .empty⟩

/-- A container is in no state. -/
def ContainerState.blank : ContainerState := ⟨none, none, none⟩

/-- Nothing is known of a pod's state. -/
def PodStatus.blank : PodStatus := ⟨none, [], []⟩

/-! ### Reading -/

/-- A time. -/
def time? (t : Term) : Option Instant := t.text?.bind Instant.read?

/-- The metadata that a term says. -/
def ObjectMeta.decode? (t : Term) : Option ObjectMeta := do
  let f ← t.fields? ["name", "namespace", "uid", "creationTimestamp", "annotations"]
  return {
    name := ← f.defaulted "name" "" Term.text?
    space := ← f.defaulted "namespace" "" Term.text?
    uid := ← f.defaulted "uid" "" Term.text?
    creationTimestamp := ← f.optional "creationTimestamp" time?
    annotations := ← f.defaulted "annotations" .empty Term.textDict? }

/-- The specification that a term says. -/
def NodeSpec.decode? (t : Term) : Option NodeSpec := do
  let f ← t.fields? ["providerID"]
  return { providerId := ← f.defaulted "providerID" "" Term.text? }

/-- The condition that a term says. -/
def NodeCondition.decode? (t : Term) : Option NodeCondition := do
  let f ← t.fields? ["type", "status"]
  return { type := ← f.required "type" Term.text?, status := ← f.required "status" Term.text? }

/-- The status that a term says. -/
def NodeStatus.decode? (t : Term) : Option NodeStatus := do
  let f ← t.fields? ["conditions"]
  return { conditions := ← f.defaulted "conditions" [] (Term.list? NodeCondition.decode?) }

/-- The node that a term says. -/
def Node.decode? (t : Term) : Option Node := do
  let f ← t.fields? ["metadata", "spec", "status"]
  return {
    metadata := ← f.defaulted "metadata" .blank ObjectMeta.decode?
    spec := ← f.defaulted "spec" ⟨""⟩ NodeSpec.decode?
    status := ← f.defaulted "status" ⟨[]⟩ NodeStatus.decode? }

/-- The specification that a term says. -/
def PodSpec.decode? (t : Term) : Option PodSpec := do
  let f ← t.fields? ["nodeName"]
  return { nodeName := ← f.defaulted "nodeName" "" Term.text? }

/-- The state that a term says. -/
def StartedState.decode? (t : Term) : Option StartedState := do
  let f ← t.fields? ["startedAt"]
  return { startedAt := ← f.optional "startedAt" time? }

/-- The state of a container that a term says. -/
def ContainerState.decode? (t : Term) : Option ContainerState := do
  let f ← t.fields? ["waiting", "running", "terminated"]
  return {
    waiting := ← f.optional "waiting" Term.value?
    running := ← f.optional "running" StartedState.decode?
    terminated := ← f.optional "terminated" StartedState.decode? }

/-- The status of a container that a term says. -/
def ContainerStatus.decode? (t : Term) : Option ContainerStatus := do
  let f ← t.fields? ["name", "containerID", "state"]
  return {
    name := ← f.defaulted "name" "" Term.text?
    containerId := ← f.defaulted "containerID" "" Term.text?
    state := ← f.defaulted "state" .blank ContainerState.decode? }

/-- The status that a term says. -/
def PodStatus.decode? (t : Term) : Option PodStatus := do
  let f ← t.fields? ["startTime", "containerStatuses", "initContainerStatuses"]
  return {
    startTime := ← f.optional "startTime" time?
    containerStatuses :=
      ← f.defaulted "containerStatuses" [] (Term.list? ContainerStatus.decode?)
    initContainerStatuses :=
      ← f.defaulted "initContainerStatuses" [] (Term.list? ContainerStatus.decode?) }

/-- The pod that a term says. -/
def Pod.decode? (t : Term) : Option Pod := do
  let f ← t.fields? ["metadata", "spec", "status"]
  return {
    metadata := ← f.defaulted "metadata" .blank ObjectMeta.decode?
    spec := ← f.defaulted "spec" ⟨""⟩ PodSpec.decode?
    status := ← f.defaulted "status" .blank PodStatus.decode? }

/-! ### Writing -/

/-- A time as a value. -/
def timeJson (t : Option Instant) : Json := .ofOption (t.map Instant.zulu)

/-- Metadata as a value. -/
def ObjectMeta.json (m : ObjectMeta) : Json :=
  .object
    [("name", .str m.name), ("namespace", .str m.space), ("uid", .str m.uid),
      ("creationTimestamp", timeJson m.creationTimestamp),
      ("annotations", .ofStrDict m.annotations)]

/-- A specification as a value. -/
def NodeSpec.json (s : NodeSpec) : Json := .object [("providerID", .str s.providerId)]

/-- A condition as a value. -/
def NodeCondition.json (c : NodeCondition) : Json :=
  .object [("type", .str c.type), ("status", .str c.status)]

/-- A status as a value. -/
def NodeStatus.json (s : NodeStatus) : Json :=
  .object [("conditions", .arr (s.conditions.map NodeCondition.json))]

/-- A node as a value. -/
def Node.json (n : Node) : Json :=
  .object [("metadata", n.metadata.json), ("spec", n.spec.json), ("status", n.status.json)]

/-- A specification as a value. -/
def PodSpec.json (s : PodSpec) : Json := .object [("nodeName", .str s.nodeName)]

/-- A state as a value. -/
def StartedState.json (s : StartedState) : Json := .object [("startedAt", timeJson s.startedAt)]

/-- The state of a container as a value. -/
def ContainerState.json (s : ContainerState) : Json :=
  .object
    [("waiting", s.waiting.getD .null), ("running", (s.running.map StartedState.json).getD .null),
      ("terminated", (s.terminated.map StartedState.json).getD .null)]

/-- The status of a container as a value. -/
def ContainerStatus.json (s : ContainerStatus) : Json :=
  .object
    [("name", .str s.name), ("containerID", .str s.containerId), ("state", s.state.json)]

/-- A status as a value. -/
def PodStatus.json (s : PodStatus) : Json :=
  .object
    [("startTime", timeJson s.startTime),
      ("containerStatuses", .arr (s.containerStatuses.map ContainerStatus.json)),
      ("initContainerStatuses", .arr (s.initContainerStatuses.map ContainerStatus.json))]

/-- A pod as a value. -/
def Pod.json (p : Pod) : Json :=
  .object [("metadata", p.metadata.json), ("spec", p.spec.json), ("status", p.status.json)]

/-! ### Parts of items -/

/-- Whose machine a node runs on. -/
inductive Cloud where
  | aws
  | gce
  | other
  deriving DecidableEq, Repr

/-- The annotation that names the machine behind a node. -/
def instanceIdAnnotation : String := "container.googleapis.com/instance_id"

namespace Node

/-- Whose machine a node runs on, by how its provider's id begins. -/
def cloud (n : Node) : Cloud :=
  if (Text.dropStart "aws" n.spec.providerId).isSome then .aws
  else if (Text.dropStart "gce" n.spec.providerId).isSome then .gce
  else .other

/-- Whether a node is ready, in a word. -/
def state (n : Node) : String :=
  match n.status.conditions.find? fun c => c.type = "Ready" with
  | some c =>
    if c.status = "True" then "Ready" else if c.status = "False" then "NotReady" else "Unknown"
  | none => "Unknown"

/-- The id of the machine behind a node: the fifth and last part of its provider's id, or an
annotation. -/
def instanceId? (n : Node) : Option String :=
  match n.cloud with
  | .aws =>
    match Text.fields '/' n.spec.providerId with
    | [_, _, _, _, id] => Text.nonEmpty id
    | _ => none
  | .gce => (n.metadata.annotations.get? instanceIdAnnotation).bind Text.nonEmpty
  | .other => none

/-- The key of a node: its name. -/
def key (n : Node) : String := n.metadata.name

end Node

/-- The phase that a container is in, in a word, and when it began. -/
def ContainerState.phase (s : ContainerState) : String × Option Instant :=
  match s.waiting, s.running, s.terminated with
  | some _, _, _ => ("Waiting", none)
  | none, some running, _ => ("Running", running.startedAt)
  | none, none, some terminated => ("Terminated", terminated.startedAt)
  | none, none, none => ("", none)

/-- The id of a container, without the name of its runtime; none before it has been created. -/
def ContainerStatus.runtimeId? (s : ContainerStatus) : Option String :=
  match Text.cutAt "://" s.containerId with
  | some (_, id) => Text.nonEmpty id
  | none => Text.nonEmpty s.containerId

namespace Pod

/-- The containers of a pod, those that prepare it last. -/
def containers (p : Pod) : List ContainerStatus :=
  p.status.containerStatuses ++ p.status.initContainerStatuses

/-- The key of a pod: its namespace and its name. -/
def key (p : Pod) : String := p.metadata.space ++ "/" ++ p.metadata.name

end Pod

/-- The id of the cluster in the metadata of one of its machines. -/
def clusterUid? (metadata : Json) : Option String :=
  ((Json.at? ["instance", "attributes", "cluster-uid"] metadata).bind Json.text?).bind
    Text.nonEmpty

end CloudInventory.Kube
