import CloudInventory.Inventory
import CloudInventory.Kube.Metadata
import CloudInventory.Main
import CloudInventory.Messaging
import CloudInventory.Shutdown
import CloudInventory.Proofs.Cache.Stores
import CloudInventory.Proofs.Cache.Held
import CloudInventory.Proofs.Cache.Ideal
import CloudInventory.Proofs.Gcp.Clusters
import CloudInventory.Proofs.Schedule.Shutdown
import CloudInventory.Proofs.Gcp.Ownership
import CloudInventory.Proofs.Gcp.Agreement
import CloudInventory.Proofs.Task.Counts
import CloudInventory.Proofs.Task.Names
import CloudInventory.Proofs.Gcp.Parents
import CloudInventory.Proofs.Gcp.Edges
import CloudInventory.Proofs.Schedule.Timeline
import CloudInventory.Proofs.Record.Slots
import CloudInventory.Proofs.Kube.History
import CloudInventory.Proofs.Task.Cancellation
import CloudInventory.Proofs.Ean.Reading
import CloudInventory.Proofs.Kube.Parents
import CloudInventory.Proofs.Json.Rebuilding
import CloudInventory.Proofs.Snapshot.Items
import CloudInventory.Proofs.Cache.Capacity
import CloudInventory.Proofs.Gcp.Search
import CloudInventory.Proofs.Schedule.Handover
import CloudInventory.Proofs.Task.Isolation
import CloudInventory.Proofs.Kube.Clusters
import CloudInventory.Proofs.Config.Loading
import CloudInventory.Proofs.Aws.Chains
import CloudInventory.Proofs.Task.Regions
import CloudInventory.Proofs.Lifecycle.Histories
import CloudInventory.Proofs.Task.Scopes
import CloudInventory.Proofs.Task.Documents
import CloudInventory.Proofs.Task.Skipping
import CloudInventory.Proofs.Gcp.Labels
import CloudInventory.Proofs.Config.Periods
import CloudInventory.Proofs.Task.Destinations
import CloudInventory.Proofs.Cache.Pairing
