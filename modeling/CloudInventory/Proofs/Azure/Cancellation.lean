import CloudInventory.Azure.Collector
import CloudInventory.Proofs.Program.Ids
import CloudInventory.Proofs.Program.Prompt

/-!
Shutdown and the job for Azure. It is prompt: the subscription that shutdown overtakes is the last
one from which anything is published. And it publishes a record for each wanted machine with an id
and a resource group that answers tell of.
-/

namespace CloudInventory.Azure

/-- The id of a machine, if it has one and a resource group. -/
def machineId (v : VirtualMachine) : List String :=
  (v.vmId?.bind fun id => v.resourceGroup?.map fun _ => id).toList

/-- The ids that an answer tells of. -/
def tell (config : AzureConfig) : (c : Call) → Answer c → List String
  | .listSubscriptions, _ => []
  | .listVms _, vms =>
    (vms.filter (VirtualMachine.wanted config.regions config.resourceGroup)).flatMap machineId

variable {config : AzureConfig} {e : Emitter}

/-! ### Promptness -/

theorem prompt_publishVm (subscription : String) (v : VirtualMachine) :
    Work.Prompt Eq (fun _ => False) (publishVm e subscription v) := by
  unfold publishVm
  split
  · exact Work.prompt_skip _ _
  · split
    · exact Work.prompt_skip _ _
    · exact Work.prompt_emit _ _ _ _

theorem stops_subscriptions : Work.Stops (subscriptions config) := by
  unfold subscriptions
  split
  · exact Work.stops_checkpoint.attempt fun _ => Work.stops_return
  · exact Work.stops_ask

theorem stops_vmsOf (subscription : String) : Work.Stops (vmsOf config e subscription) :=
  Work.stops_askTotal (prompt_publishVm subscription)

theorem idle_vmsOf (subscription : String) :
    Work.Idle (fun _ => True) (vmsOf config e subscription).run :=
  Work.Idle.mono (Work.refuses_ask.attempt _) fun _ _ => trivial

/-- The job of a pass is prompt. -/
theorem prompt_of_mem_pass {stamp : Instant} {job : Job Unit Call Answer}
    (h : job ∈ pass config stamp) : Work.PromptAnyhow job.work.run := by
  obtain rfl := eq_of_mem_pass h
  refine stops_subscriptions.then (fun ids => ?_) (fun _ => trivial) trivial
  exact (Work.prompt_scopes stops_vmsOf idle_vmsOf ids).anyhow

/-! ### Ids -/

variable {w : World Call Answer}

theorem publishesId_vm (subscription : String) (v : VirtualMachine) :
    (Account.ids Unit w (tell config)).Publishes (publishVm e subscription v) (machineId v) := by
  unfold publishVm
  split
  case h_1 hid =>
    rw [machineId, hid]
    exact Account.publishes_ids_skip _ _
  case h_2 id hid =>
    split
    case h_1 hgroup =>
      rw [machineId, hid, hgroup]
      exact Account.publishes_ids_skip _ _
    case h_2 group hgroup =>
      rw [machineId, hid, hgroup]
      refine Account.publishes_ids_emit e _ id ?_
      simp only [List.forall_mem_append]
      exact ⟨⟨⟨by simp [Patch.setsId], Patch.setsId_maybeName _⟩,
        by simp [Patch.setsId, Patch.entry]⟩, Patch.setsId_optional (fun _ => rfl) _⟩

theorem learns_subscriptions :
    Account.LearnsNothing w (tell config) (subscriptions config).run := by
  unfold subscriptions
  split
  · exact Account.learns_checkpoint.attempt fun _ => Account.learns_pure rfl
  · exact Account.learns_ask_nothing fun _ => rfl

/-- The job of a pass publishes a record for each id that it is told of. -/
theorem collectsId_of_mem_pass {stamp : Instant} {job : Job Unit Call Answer}
    (h : job ∈ pass config stamp) : (Account.ids Unit w (tell config)).Collects job.work := by
  obtain rfl := eq_of_mem_pass h
  refine Account.collects_after learns_subscriptions fun ids => Account.collects_scopes ?_
  exact fun subscription => Account.collects_askTotal fun vms =>
    Account.publishes_total fun v _ => publishesId_vm subscription v

end CloudInventory.Azure
