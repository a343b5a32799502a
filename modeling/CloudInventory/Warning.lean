import CloudInventory.Error

/-!
Warnings: what went wrong without stopping the work around it. `message` is the one wording.
-/

namespace CloudInventory

/-- What went wrong without stopping the work around it. -/
inductive Warning where
  /-- An item of a listing cannot be described. -/
  | skippedItem (cause : CollectorError)
  /-- A project or a subscription could not be collected. -/
  | scopeFailed (cause : CollectorError)
  /-- An EKS cluster could not be described. -/
  | skippedCluster (cause : CollectorError)
  /-- The children of an EKS cluster could not be found. -/
  | childlessEks (cause : CollectorError)
  /-- The children of a GKE cluster could not be found. -/
  | childlessGke (cause : CollectorError)
  /-- The metadata of the machine that the collector runs on could not be fetched. -/
  | noMetadata (cause : CollectorError)
  /-- The metadata of the machine does not name its cluster. -/
  | noClusterUid
  /-- A task failed. -/
  | taskFailed (cause : CollectorError)
  /-- A task panicked. -/
  | taskPanicked
  /-- A collector failed to start. -/
  | startFailed (cause : CollectorError)
  /-- A stream of events brought an error. -/
  | streamError (cause : CollectorError)
  /-- A stream of events ended. -/
  | streamEnded
  /-- A record has neither a destination nor a type. -/
  | unroutable
  /-- A record could not be published. -/
  | unpublished (cause : CollectorError)
  deriving DecidableEq, Repr

namespace Warning

/-- The wording of a warning. -/
def message : Warning → String
  | skippedItem e => "skipping item: " ++ e.message
  | scopeFailed e => "scope collection failed: " ++ e.message
  | skippedCluster e => "skipping EKS cluster: " ++ e.message
  | childlessEks e => "EKS cluster published without children: " ++ e.message
  | childlessGke e => "GKE cluster published without children: " ++ e.message
  | noMetadata e => "cluster uid lookup failed: " ++ e.message
  | noClusterUid => "metadata document has no cluster-uid attribute"
  | taskFailed e => "asset type collection failed: " ++ e.message
  | taskPanicked => "collection task panicked"
  | startFailed e => "asset collector failed to start: " ++ e.message
  | streamError e => "watch event error: " ++ e.message
  | streamEnded => "watch stream ended"
  | unroutable => "dropping asset record without type or destination"
  | unpublished e => "failed to publish asset record: " ++ e.message

end Warning

end CloudInventory
