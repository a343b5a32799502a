import CloudInventory.Lifecycle
import CloudInventory.Vocabulary

/-!
What can go wrong between a provider and the inventory. An error is a cause; `message` is its one
wording.
-/

namespace CloudInventory

/-- Why a provider's call failed. -/
inductive CallFault where
  /-- There is no file at `path`. -/
  | missing (path : String)
  /-- The file at `path` does not hold what it should. -/
  | malformed (path : String)
  /-- The provider knows no `what`. -/
  | notFound (what : String)
  /-- The text names no location of a project. -/
  | malformedParent (parent : String)
  /-- The provider gave a reason of its own. -/
  | refused (reason : String)
  deriving DecidableEq, Repr

/-- The wording of a failed call. -/
def CallFault.message : CallFault → String
  | missing path => path ++ ": missing"
  | malformed path => path ++ ": malformed"
  | notFound what => what ++ " not found"
  | malformedParent parent => "malformed parent " ++ parent
  | refused reason => reason

/-- Why a configuration cannot be used. -/
inductive ConfigFault where
  | unreadable
  | malformed
  | zeroPeriod (provider : Provider)
  | unknownType (provider : Provider) (name : String)
  | badNamespace (provider : Provider) (space : String)
  | noProjects
  | noServers
  | other (text : String)
  deriving DecidableEq, Repr

/-- The wording of a configuration that cannot be used. -/
def ConfigFault.message : ConfigFault → String
  | unreadable => "cannot read"
  | malformed => "malformed"
  | zeroPeriod p => p.text ++ ": period must be greater than zero"
  | unknownType p name => p.text ++ ": unknown asset type '" ++ name ++ "'"
  | badNamespace p space =>
    p.text ++ ": index_namespace '" ++ space ++ "' must be non-empty without whitespace"
  | noProjects => "gcp: at least one project is required"
  | noServers => "nats: enabled without servers"
  | other text => text

/-- Why a collection, or a part of it, failed. -/
inductive CollectorError where
  | provider (name operation : String) (fault : CallFault)
  | invalidItem (type : AssetType) (field : String)
  | configuration (fault : ConfigFault)
  | natsConnection (text : String)
  | natsPublish (text : String)
  | serialization (text : String)
  | metadata (text : String)
  | watcher (fault : CallFault)
  | transition (fault : Lifecycle.Fault)
  | cancelled
  deriving DecidableEq, Repr

namespace CollectorError

/-- The name of an error's kind. -/
def kind : CollectorError → String
  | provider _ _ _ => "Provider"
  | invalidItem _ _ => "InvalidItem"
  | configuration _ => "Configuration"
  | natsConnection _ => "NatsConnection"
  | natsPublish _ => "NatsPublish"
  | serialization _ => "Serialization"
  | metadata _ => "Metadata"
  | watcher _ => "Watcher"
  | transition _ => "Transition"
  | cancelled => "Cancelled"

/-- The wording of an error. -/
def message : CollectorError → String
  | provider name operation fault =>
    name ++ " API error during " ++ operation ++ ": " ++ fault.message
  | invalidItem type field => "Invalid " ++ type.text ++ " item: missing " ++ field
  | configuration fault => "Configuration error: " ++ fault.message
  | natsConnection text => "NATS connection error: " ++ text
  | natsPublish text => "NATS publish error: " ++ text
  | serialization text => "Serialization error: " ++ text
  | metadata text => "Metadata error: " ++ text
  | watcher fault => "Watcher error: " ++ fault.message
  | transition fault => "Scheduler error: " ++ fault.message
  | cancelled => "Collection cancelled"

end CollectorError

end CloudInventory
