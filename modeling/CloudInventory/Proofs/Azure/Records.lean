import CloudInventory.Azure.Collector
import CloudInventory.Proofs.Program.Emits
import CloudInventory.Proofs.Record.Names

/-!
What the job for Azure publishes: it tells how many records it has published, and all names in them
have ids. A subscription is gone through with a single call, so that nothing is lost when it fails.
-/

namespace CloudInventory.Azure

variable {w : World Call Answer} {e : Emitter}

/-- An attempt that tells its records, all of whose names have ids. -/
abbrev Collects (w : World Call Answer) (m : Try Nat) : Prop :=
  Work.Emits w (fun _ => True) (Record.Named Ean.HaveIds) m.run Work.Tells

theorem publishes_vm (subscription : String) (v : VirtualMachine) :
    Work.Emits w (fun _ => True) (Record.Named Ean.HaveIds) (publishVm e subscription v)
      Work.Counts := by
  unfold publishVm
  split
  case h_1 => exact Work.emits_skip _ _
  case h_2 id hid =>
    split
    case h_1 => exact Work.emits_skip _ _
    case h_2 group hgroup =>
      refine Work.emits_emit (Record.named_compose _ _ _ (Text.ne_empty_of_bind_nonEmpty hid)
        Ean.haveIds_nil ?_)
      simp only [List.forall_mem_append]
      refine ⟨⟨⟨?_, Patch.names_maybeName _⟩, ?_⟩, ?_⟩
      · simp [Patch.Names]
      · simp [Patch.Names, Patch.entry]
      · simp [Patch.Names]

theorem collects_vmsOf (c : AzureConfig) (subscription : String) :
    Collects w (vmsOf c e subscription) :=
  Work.emits_askThen fun _ _ _ => Work.emits_total fun v _ => publishes_vm subscription v

/-- Finding out the subscriptions publishes nothing. -/
theorem emits_subscriptions (c : AzureConfig) :
    Work.Emits w (fun _ => True) (Record.Named Ean.HaveIds) (subscriptions c).run
      fun r new => new = [] ∧ ∀ ids, r = .ok ids → True := by
  unfold subscriptions
  split
  case h_1 id _ =>
    exact Work.Emits.attempt (U := fun _ => True)
      (Work.emits_checkpoint fun _ => ⟨rfl, fun _ _ => trivial⟩)
      (fun _ => ⟨rfl, fun _ _ => trivial⟩) fun _ _ => Work.emits_return ⟨rfl, fun _ _ => trivial⟩
  case h_2 =>
    exact Work.emits_ask (fun _ => ⟨rfl, fun _ _ => trivial⟩) fun _ _ _ =>
      ⟨rfl, fun _ _ => trivial⟩

/-- The job of a pass tells its records, all of whose names have ids. -/
theorem collects_of_mem_pass {config : AzureConfig} {stamp : Instant}
    {job : Job Unit Call Answer} (h : job ∈ pass config stamp) : Collects w job.work := by
  obtain rfl := eq_of_mem_pass h
  exact Work.Emits.attempt (emits_subscriptions config) (fun _ => rfl) fun ids _ =>
    Work.emits_scopes fun subscription _ => collects_vmsOf config subscription

end CloudInventory.Azure
