import CloudInventory.Destination
import CloudInventory.Error
import CloudInventory.Instant
import CloudInventory.Json.Basic
import CloudInventory.Text.Split

/-!
Configurations: a section for each provider that is to be collected from, and one for the
messaging server. `Config.check` says whether collectors can run with one, and names the first
fault in the order of the sections.
-/

namespace CloudInventory

/-- What the sections of all providers have in common. -/
structure BaseConfig where
  /-- Seconds between two passes. -/
  period : Nat
  /-- The texts of the types to collect; an empty list stands for all. -/
  assetTypes : List String
  space : Option String
  deriving DecidableEq, Repr

/-- The section of Amazon Web Services. -/
structure AwsConfig where
  base : BaseConfig
  regions : List String
  accessKeyId : Option String
  secretAccessKey : Option String
  sessionToken : Option String
  deriving DecidableEq, Repr

/-- The section of Google Cloud; an empty list of regions stands for all. -/
structure GcpConfig where
  base : BaseConfig
  projects : List String
  regions : List String
  credentialsFilePath : Option String
  deriving DecidableEq, Repr

/-- The section of Azure; an empty list of regions stands for all. -/
structure AzureConfig where
  base : BaseConfig
  regions : List String
  clientId : Option String
  clientSecret : Option String
  tenantId : Option String
  /-- The one subscription to collect from; without it they are listed. -/
  subscriptionId : Option String
  resourceGroup : Option String
  deriving DecidableEq, Repr

/-- The section of Kubernetes. -/
structure KubeConfig where
  base : BaseConfig
  kubeConfig : Option String
  /-- The collector runs inside the cluster. -/
  inCluster : Bool
  deriving DecidableEq, Repr

/-- The section of the messaging server. -/
structure NatsConfig where
  enabled : Bool
  servers : List String
  name : String
  /-- Seconds to wait for a connection. -/
  connectTimeout : Nat
  deriving DecidableEq, Repr

/-- A configuration. -/
structure Config where
  nats : NatsConfig
  aws : Option AwsConfig
  gcp : Option GcpConfig
  azure : Option AzureConfig
  kube : Option KubeConfig
  deriving DecidableEq, Repr

namespace BaseConfig

/-- The default settings. -/
def standard : BaseConfig := ⟨600, [], none⟩

instance : Inhabited BaseConfig := ⟨standard⟩

/-- How many seconds an entry of a cache lives, two periods; none when that is beyond the range
of 64 bits. -/
def cacheTtl (b : BaseConfig) : Option Nat :=
  if 2 * b.period < Nat.pow 2 64 then some (2 * b.period) else none

/-- A type is to be collected. -/
def enables (b : BaseConfig) (t : AssetType) : Bool :=
  b.assetTypes.isEmpty || b.assetTypes.contains t.text

/-- Check the settings of a provider. -/
def check (b : BaseConfig) (p : Provider) : Except ConfigFault Unit :=
  if b.period = 0 then .error (.zeroPeriod p)
  else
    let known (name : String) := p.types.any fun t => t.text = name
    match b.assetTypes.find? fun name => !known name with
    | some name => .error (.unknownType p name)
    | none =>
      match b.space with
      | some space =>
        if space = "" ∨ Text.hasBlank space then .error (.badNamespace p space) else .ok ()
      | none => .ok ()

end BaseConfig

namespace NatsConfig

/-- The default settings. -/
def standard : NatsConfig := ⟨true, ["nats://localhost:4222"], "asset-collector", 10⟩

instance : Inhabited NatsConfig := ⟨standard⟩

end NatsConfig

namespace AwsConfig

/-- The regions for which none are given. -/
def standardRegions : List String := ["eu-west-2"]

end AwsConfig

namespace Config

/-- A configuration without sections. -/
def standard : Config := ⟨.standard, none, none, none, none⟩

instance : Inhabited Config := ⟨standard⟩

/-- Check a section, if it is there. -/
def checkSection {α : Type} (s : Option α) (check : α → Except ConfigFault Unit) :
    Except ConfigFault Unit :=
  match s with
  | some s => check s
  | none => .ok ()

/-- Check a configuration. -/
def check (c : Config) : Except ConfigFault Unit := do
  checkSection c.aws fun s => s.base.check .aws
  checkSection c.gcp fun s => do
    s.base.check .gcp
    if s.projects = [] then .error .noProjects else .ok ()
  checkSection c.azure fun s => s.base.check .azure
  checkSection c.kube fun s => s.base.check .kube
  if c.nats.enabled ∧ c.nats.servers = [] then .error .noServers else .ok ()

/-- The settings of each section that is there, with its provider, in the order of providers. -/
def sections (c : Config) : List (Provider × BaseConfig) :=
  (c.aws.map fun s => (Provider.aws, s.base)).toList ++
  (c.gcp.map fun s => (Provider.gcp, s.base)).toList ++
  (c.azure.map fun s => (Provider.azure, s.base)).toList ++
  (c.kube.map fun s => (Provider.kube, s.base)).toList

/-- The providers that have a section. -/
def providers (c : Config) : List Provider := c.sections.map (·.1)

/-- The servers that an override lists, with commas between them. -/
def overrideServers (urls : String) : List String :=
  ((Text.fields ',' urls).map Text.trim).filter (· ≠ "")

/-- Replace the servers by the ones an override lists, if it lists any. -/
def withServers (c : Config) (urls : String) : Config :=
  let servers := overrideServers urls
  if servers = [] then c else { c with nats := { c.nats with servers } }

end Config

end CloudInventory
