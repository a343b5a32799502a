import CloudInventory.Destination
import CloudInventory.Json.Flat
import CloudInventory.Record.Basic

/-!
Patches: settings of one attribute each. A record is composed by applying patches from left to
right to a blank one. Patches of different attributes commute, and of two patches of one attribute
the later one stays; metadata and fields are merged key by key.

A description is a list of patches. The functions below that answer lists are the phrases from
which collectors put descriptions together.
-/

namespace CloudInventory

/-- The setting of an attribute. -/
inductive Patch where
  | provider (p : Provider)
  | region (s : String)
  | account (s : String)
  /-- Kind and id, and with them the EAN. -/
  | kindAndId (kind : AssetKind) (id : String)
  | type (t : AssetType)
  | name (s : String)
  | parents (eans : List Ean)
  | children (eans : List Ean)
  | metadata (members : Dict Json)
  | tags (pairs : Dict String)
  | labels (pairs : Dict String)
  | field (key : String) (value : Json)
  | destination (s : String)
  deriving DecidableEq

namespace Patch

/-- Set the attribute. -/
def apply (r : Record) : Patch → Record
  | provider p => { r with provider := some p }
  | region s => { r with region := some s }
  | account s => { r with account := some s }
  | kindAndId kind id => { r with kind := some kind, id := some id, ean := some ⟨kind, id⟩ }
  | type t => { r with type := some t }
  | name s => { r with name := some s }
  | parents eans => { r with parents := eans }
  | children eans => { r with children := eans }
  | metadata members => { r with metadata := r.metadata.insertAll (Json.flatten members).toList }
  | tags pairs => { r with metadata := r.metadata.insertAll (Json.namespaced "tags" pairs).toList }
  | labels pairs =>
    { r with metadata := r.metadata.insertAll (Json.namespaced "labels" pairs).toList }
  | field key value => { r with fields := value.flattenInto key r.fields }
  | destination s => { r with destination := some s }

/-! ### Phrases -/

/-- Type, kind, id and destination. -/
def typed (t : AssetType) (id : String) (space : Option String) : List Patch :=
  [kindAndId t.kind id, type t, destination (destinationFor t space)]

/-- A name, unless it is absent or empty. -/
def maybeName : Option String → List Patch
  | some s => if s = "" then [] else [name s]
  | none => []

theorem maybeName_cases (s : Option String) : maybeName s = [] ∨ ∃ n, maybeName s = [name n] := by
  unfold maybeName
  split
  · split
    · exact .inl rfl
    · exact .inr ⟨_, rfl⟩
  · exact .inl rfl

/-- One entry of the metadata. -/
def entry (key : String) (value : Json) : Patch := metadata (.ofList [(key, value)])

/-- The id of the machine behind an asset. -/
def cloudInstanceId (id : String) : Patch := field "cloud.instance.id" (.str id)

/-- A time, or null. -/
def timeValue (t : Option Instant) : Json := .ofOption (t.map Instant.stamp)

/-- The fields of a Kubernetes node. -/
def nodeData (name : String) (start : Option Instant) : List Patch :=
  [field "kubernetes.node.name" (.str name),
    field "kubernetes.node.start_time" (timeValue start)]

/-- The fields of a pod. -/
def podData (name uid space : String) (start : Option Instant) : List Patch :=
  [field "kubernetes.pod.name" (.str name),
    field "kubernetes.pod.uid" (.str uid),
    field "kubernetes.pod.start_time" (timeValue start),
    field "kubernetes.namespace" (.str space)]

/-- The fields of a container. -/
def containerData (name uid space state : String) (start : Option Instant) : List Patch :=
  [field "kubernetes.container.name" (.str name),
    field "kubernetes.container.uid" (.str uid),
    field "kubernetes.container.start_time" (timeValue start),
    field "kubernetes.container.state" (.str state),
    field "kubernetes.namespace" (.str space)]

end Patch

namespace Record

/-- The record that patches say. -/
def compose (timestamp : Instant) (patches : List Patch) : Record :=
  patches.foldl Patch.apply (blank timestamp)

/-- The subject under which a record is published: its destination, or else the stream of its
type without a namespace; none for a record with neither. -/
def subject? (r : Record) : Option String :=
  r.destination.or (r.type.map fun t => destinationFor t none)

end Record

end CloudInventory
