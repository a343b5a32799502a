import CloudInventory.Config.Basic
import CloudInventory.Json.Decoder
import CloudInventory.Toml.Document

/-!
Reading and writing configurations. A provider's section has the common settings among its own,
and so has to be an object. Whatever is left out has a default; null is only taken for settings
that may be absent.
-/

namespace CloudInventory

namespace BaseConfig

/-- The names of the common settings. -/
def fieldNames : List String := ["period", "asset_types", "index_namespace"]

/-- The common settings among the fields of a section. -/
def ofFields? (f : Fields) : Option BaseConfig := do
  return {
    period := ← f.defaulted "period" standard.period Term.word?
    assetTypes := ← f.defaulted "asset_types" [] Term.texts?
    space := ← f.defaulted "index_namespace" none (Term.nullable? Term.text?) }

/-- The common settings as members of a section. -/
def members (b : BaseConfig) : List (String × Json) :=
  [("period", .nat b.period), ("asset_types", .strs b.assetTypes),
    ("index_namespace", .ofOption b.space)]

end BaseConfig

/-- A setting that may be absent. -/
def Fields.setting (f : Fields) (name : String) : Option (Option String) :=
  f.defaulted name none (Term.nullable? Term.text?)

/-- The fields of a section whose own names are `names`. -/
def Term.section? (names : List String) (t : Term) : Option Fields :=
  t.members? (BaseConfig.fieldNames ++ names)

namespace AwsConfig

/-- The section that a term says. -/
def decode? (t : Term) : Option AwsConfig := do
  let f ← t.section? ["regions", "access_key_id", "secret_access_key", "session_token"]
  return {
    base := ← BaseConfig.ofFields? f
    regions := ← f.defaulted "regions" standardRegions Term.texts?
    accessKeyId := ← f.setting "access_key_id"
    secretAccessKey := ← f.setting "secret_access_key"
    sessionToken := ← f.setting "session_token" }

/-- The section as a value. -/
def json (c : AwsConfig) : Json :=
  .object (c.base.members ++
    [("regions", .strs c.regions), ("access_key_id", .ofOption c.accessKeyId),
      ("secret_access_key", .ofOption c.secretAccessKey),
      ("session_token", .ofOption c.sessionToken)])

end AwsConfig

namespace GcpConfig

/-- The section that a term says. -/
def decode? (t : Term) : Option GcpConfig := do
  let f ← t.section? ["projects", "regions", "credentials_file_path"]
  return {
    base := ← BaseConfig.ofFields? f
    projects := ← f.defaulted "projects" [] Term.texts?
    regions := ← f.defaulted "regions" [] Term.texts?
    credentialsFilePath := ← f.setting "credentials_file_path" }

/-- The section as a value. -/
def json (c : GcpConfig) : Json :=
  .object (c.base.members ++
    [("projects", .strs c.projects), ("regions", .strs c.regions),
      ("credentials_file_path", .ofOption c.credentialsFilePath)])

end GcpConfig

namespace AzureConfig

/-- The section that a term says. -/
def decode? (t : Term) : Option AzureConfig := do
  let f ← t.section?
    ["regions", "client_id", "client_secret", "tenant_id", "subscription_id", "resource_group"]
  return {
    base := ← BaseConfig.ofFields? f
    regions := ← f.defaulted "regions" [] Term.texts?
    clientId := ← f.setting "client_id"
    clientSecret := ← f.setting "client_secret"
    tenantId := ← f.setting "tenant_id"
    subscriptionId := ← f.setting "subscription_id"
    resourceGroup := ← f.setting "resource_group" }

/-- The section as a value. -/
def json (c : AzureConfig) : Json :=
  .object (c.base.members ++
    [("regions", .strs c.regions), ("client_id", .ofOption c.clientId),
      ("client_secret", .ofOption c.clientSecret), ("tenant_id", .ofOption c.tenantId),
      ("subscription_id", .ofOption c.subscriptionId),
      ("resource_group", .ofOption c.resourceGroup)])

end AzureConfig

namespace KubeConfig

/-- The section that a term says. -/
def decode? (t : Term) : Option KubeConfig := do
  let f ← t.section? ["kube_config", "in_cluster"]
  return {
    base := ← BaseConfig.ofFields? f
    kubeConfig := ← f.setting "kube_config"
    inCluster := ← f.defaulted "in_cluster" false Term.flag? }

/-- The section as a value. -/
def json (c : KubeConfig) : Json :=
  .object (c.base.members ++
    [("kube_config", .ofOption c.kubeConfig), ("in_cluster", .bool c.inCluster)])

end KubeConfig

namespace NatsConfig

/-- The names of the settings, in their order. -/
def fieldNames : List String := ["enabled", "servers", "name", "connect_timeout_secs"]

/-- The section that a term says; `surplus` as for `Term.fieldsWith?`. -/
def decode? (surplus : Bool) (t : Term) : Option NatsConfig := do
  let f ← t.fieldsWith? surplus fieldNames
  return {
    enabled := ← f.defaulted "enabled" standard.enabled Term.flag?
    servers := ← f.defaulted "servers" standard.servers Term.texts?
    name := ← f.defaulted "name" standard.name Term.text?
    connectTimeout := ← f.defaulted "connect_timeout_secs" standard.connectTimeout Term.word? }

/-- The section as a value. -/
def json (c : NatsConfig) : Json :=
  .object
    [("enabled", .bool c.enabled), ("servers", .strs c.servers), ("name", .str c.name),
      ("connect_timeout_secs", .nat c.connectTimeout)]

end NatsConfig

namespace Config

/-- The configuration that a term says; `surplus` as for `Term.fieldsWith?`. -/
def decodeWith? (surplus : Bool) (t : Term) : Option Config := do
  let f ← t.fieldsWith? surplus ["nats", "aws", "gcp", "azure", "k8s"]
  return {
    nats := ← f.defaulted "nats" .standard (NatsConfig.decode? surplus)
    aws := ← f.defaulted "aws" none (Term.nullable? AwsConfig.decode?)
    gcp := ← f.defaulted "gcp" none (Term.nullable? GcpConfig.decode?)
    azure := ← f.defaulted "azure" none (Term.nullable? AzureConfig.decode?)
    kube := ← f.defaulted "k8s" none (Term.nullable? KubeConfig.decode?) }

/-- The configuration that a JSON term says. -/
def decode? (t : Term) : Option Config := decodeWith? false t

/-- A section, or null. -/
def sectionJson {α : Type} (json : α → Json) : Option α → Json
  | some s => json s
  | none => .null

/-- The configuration as a value. -/
def json (c : Config) : Json :=
  .object
    [("nats", c.nats.json), ("aws", sectionJson AwsConfig.json c.aws),
      ("gcp", sectionJson GcpConfig.json c.gcp), ("azure", sectionJson AzureConfig.json c.azure),
      ("k8s", sectionJson KubeConfig.json c.kube)]

/-- The configuration when it passes its check. -/
def checked (c : Config) : Except ConfigFault Config := c.check.map fun _ => c

/-- The configuration that a TOML text says. An array there may have more items than the structure
that is read from it. -/
def ofToml (text : String) : Except ConfigFault Config :=
  match (Toml.read? text).bind (decodeWith? true) with
  | some c => c.checked
  | none => .error .malformed

/-- The configuration that a file's text says, with the servers of an override. The check comes
before the override. -/
def load (text : Option String) (urls : Option String) : Except ConfigFault Config :=
  match text with
  | none => .error .unreadable
  | some text =>
    (ofToml text).map fun c =>
      match urls with
      | some urls => c.withServers urls
      | none => c

end Config

end CloudInventory
