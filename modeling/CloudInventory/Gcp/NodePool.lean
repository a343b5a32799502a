import CloudInventory.Error
import CloudInventory.Gcp.Item
import CloudInventory.Links

/-!
Which machines are nodes of a cluster. A machine carries the labels of its node as metadata, all
in one text with commas between them; the label for the node pool says which pool it belongs to.
The machines of a cluster are looked for in the cache of machines, among those of the cluster's
region, as long as the cache holds any machine at all; otherwise they have to be listed.
-/

namespace CloudInventory.Gcp

/-- What is known of a machine. -/
structure InstanceSummary where
  id : String
  region : String
  account : String
  items : List MetadataItem
  deriving DecidableEq, Repr

instance : HasId InstanceSummary := ⟨InstanceSummary.id⟩

/-- The key of the metadata that hold the labels. -/
def labelsKey : String := "kube-labels"

/-- The label for the node pool. -/
def poolLabel : String := "cloud.google.com/gke-nodepool"

/-- The entries that a text of labels has, in their order; one without an equals sign is none. -/
def labelEntries (text : String) : List (String × String) :=
  (Text.fields ',' text).filterMap (Text.cut '=')

/-- The labels among metadata; of several with one name the last one counts. -/
def kubeLabels (items : List MetadataItem) : Dict String :=
  .ofList ((items.filter fun i => i.key = labelsKey).flatMap fun i => labelEntries i.value)

/-- Metadata place their machine in one of the pools. -/
def isMember (pools : List String) (items : List MetadataItem) : Bool :=
  match (kubeLabels items).get? poolLabel with
  | some pool => pools.contains pool
  | none => false

/-- The ids of the machines in one of the pools. -/
def memberIds (pools : List String) (machines : List InstanceSummary) : List String :=
  (machines.filter fun m => isMember pools m.items).map InstanceSummary.id

/-- The ids of the machines of a region in one of the pools, as far as the cache can tell; none
when they have to be listed. -/
def cachedIds (c : Cache InstanceSummary) (region : String) (pools : List String) (now : Nat) :
    Option (List String) × Cache InstanceSummary :=
  if pools = [] then (some [], c)
  else
    let (known, c) := c.listing now
    if known = [] then (none, c)
    else (some (memberIds pools ((known.map (·.2)).filter fun m => m.region = region)), c)

/-- What a search for the machines of a cluster found. -/
structure Search where
  ids : Except CollectorError (List String)
  /-- The machines had to be listed. -/
  listed : Bool
  cache : Cache InstanceSummary

/-- Search for the machines of a region in one of the pools; `listing` is what listing them
answers. -/
def search (c : Cache InstanceSummary) (region : String) (pools : List String)
    (listing : Except CollectorError (List InstanceSummary)) (now : Nat) : Search :=
  match cachedIds c region pools now with
  | (some ids, c) => ⟨.ok ids, false, c⟩
  | (none, c) => ⟨listing.map (memberIds pools), true, c⟩

end CloudInventory.Gcp
