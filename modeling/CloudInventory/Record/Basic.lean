import CloudInventory.Ean
import CloudInventory.Instant

/-!
Records: what is known of one asset at one time. `Record.document` is the flat document that goes
out: an entry for each attribute that is set, a key for each entry of the metadata, and the extra
fields, which come last and so overwrite an attribute with the same key.
-/

namespace CloudInventory

/-- What is known of an asset. -/
structure Record where
  timestamp : Instant
  provider : Option Provider
  region : Option String
  account : Option String
  kind : Option AssetKind
  id : Option String
  ean : Option Ean
  type : Option AssetType
  name : Option String
  parents : List Ean
  children : List Ean
  /-- Flat metadata, written under `asset.metadata`. -/
  metadata : Dict Json
  /-- Flat extra fields of the document. -/
  fields : Dict Json
  destination : Option String
  deriving DecidableEq

namespace Record

/-- A record that says nothing. -/
def blank (timestamp : Instant) : Record where
  timestamp
  provider := none
  region := none
  account := none
  kind := none
  id := none
  ean := none
  type := none
  name := none
  parents := []
  children := []
  metadata := .empty
  fields := .empty
  destination := none

/-- An entry for a text that is set. -/
def textEntry (key : String) (value : Option String) : List (String × Json) :=
  match value with
  | some s => [(key, .str s)]
  | none => []

/-- An entry for names, if there are any. -/
def eanEntry (key : String) (eans : List Ean) : List (String × Json) :=
  if eans = [] then [] else [(key, .strs (eans.map Ean.text))]

/-- The key of a metadata entry in the document. -/
def metadataKey (key : String) : String := "asset.metadata." ++ key

/-- The entries of a record's document: attributes first, then metadata, then fields. -/
def entries (r : Record) : List (String × Json) :=
  [("@timestamp", .str r.timestamp.stamp)] ++
  textEntry "cloud.provider" (r.provider.map Provider.text) ++
  textEntry "cloud.region" r.region ++
  textEntry "cloud.account.id" r.account ++
  textEntry "asset.kind" (r.kind.map AssetKind.text) ++
  textEntry "asset.id" r.id ++
  textEntry "asset.type" (r.type.map AssetType.text) ++
  textEntry "asset.name" r.name ++
  textEntry "asset.ean" (r.ean.map Ean.text) ++
  eanEntry "asset.parents" r.parents ++
  eanEntry "asset.children" r.children ++
  (r.metadata.toList.map fun e => (metadataKey e.1, e.2)) ++
  r.fields.toList

/-- The document of a record; of two entries with one key the later one stays. -/
def document (r : Record) : Dict Json := .ofList r.entries

end Record

end CloudInventory
