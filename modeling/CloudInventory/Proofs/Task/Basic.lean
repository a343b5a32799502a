import CloudInventory.Proofs.Gcp.Turns
import CloudInventory.Proofs.Program.Emits

/-!
Tasks: the jobs of the passes of all providers, each in a world that answers its calls, fails them
or lets shutdown overtake them as it likes. What work ensures of its records and its result holds of
the report of the job that it is the work of.
-/

namespace CloudInventory

/-- A job of some provider's pass that is run in some world, with what it finds: shutdown may have
been signalled already, and a job for Google Cloud finds caches. -/
inductive Task where
  | aws (config : AwsConfig) (stamp : Instant) (job : Job Unit Aws.Call Aws.Answer)
    (ofPass : job ∈ Aws.pass config stamp) (world : World Aws.Call Aws.Answer) (cancelled : Bool)
  | azure (config : AzureConfig) (stamp : Instant) (job : Job Unit Azure.Call Azure.Answer)
    (ofPass : job ∈ Azure.pass config stamp) (world : World Azure.Call Azure.Answer)
    (cancelled : Bool)
  | gcp (config : GcpConfig) (ttl : Nat) (turn : Gcp.Turn) (ofPass : turn.OfPass config ttl)
    (caches : Gcp.Caches)
  | kube (config : KubeConfig) (fetches : Bool) (stamp : Instant) (stores : Kube.Stores)
    (job : Job Unit Kube.Call Kube.Answer) (ofPass : job ∈ Kube.pass config fetches stamp stores)
    (world : World Kube.Call Kube.Answer) (cancelled : Bool)

namespace Task

/-- What a task does. -/
def report : Task → JobReport
  | aws _ _ job _ world cancelled => (job.report world Aws.Call.words () cancelled).1
  | azure _ _ job _ world cancelled => (job.report world Azure.Call.words () cancelled).1
  | gcp _ _ turn _ caches => (turn.report caches).1
  | kube _ _ _ _ job _ world cancelled => (job.report world (fun _ => []) () cancelled).1

end Task

namespace JobReport

/-- Every record has a property, and so has the result, if there is one, together with them. -/
structure Meets (P : Record → Prop) (V : Except CollectorError Nat → List Record → Prop)
    (report : JobReport) : Prop where
  records : ∀ r ∈ report.records, P r
  result : ∀ result, report.outcome = .ofResult result → V result report.records

theorem Meets.mono {P P' : Record → Prop} {V V' : Except CollectorError Nat → List Record → Prop}
    {report : JobReport} (h : report.Meets P V) (hP : ∀ r, P r → P' r)
    (hV : ∀ result new, V result new → V' result new) : report.Meets P' V' :=
  ⟨fun r hr => hP r (h.records r hr), fun result hresult => hV _ _ (h.result result hresult)⟩

end JobReport

section Reports

variable {σ Call : Type} {Answer : Call → Type} {w : World Call Answer} {J : σ → Prop}
  {P : Record → Prop} {V : Except CollectorError Nat → List Record → Prop}

theorem Outcome.ofResult_inj {a b : Except CollectorError Nat}
    (h : Outcome.ofResult a = Outcome.ofResult b) : a = b := by
  cases a <;> cases b <;> simp_all [Outcome.ofResult]

/-- The report of a job says what its work ensures. -/
theorem Job.report_meets {j : Job σ Call Answer} {s : σ} {cancelled : Bool}
    (words : Call → List String)
    (h : Work.Ensures w (fun _ t' => ∃ new, (Session.start cancelled).Adds P t' new) j.work.run s
      (.start cancelled)
      fun r _ t' => ∃ new, (Session.start cancelled).Adds P t' new ∧ V r new) :
    (j.report w words s cancelled).1.Meets P V := by
  obtain ⟨left, t', hrun, new, hrecords, hP⟩ |
    ⟨result, s', t', hrun, new, ⟨hrecords, hP⟩, hV⟩ := h.ends
  · rw [Job.report_of_brokenOff hrun]
    obtain rfl : t'.records = new := hrecords
    refine ⟨hP, fun result hresult => ?_⟩
    cases result <;> cases hresult
  · rw [Job.report_of_result hrun]
    obtain rfl : t'.records = new := hrecords
    refine ⟨hP, fun result' hresult => ?_⟩
    obtain rfl := Outcome.ofResult_inj hresult
    exact hV

theorem Work.Emits.report_meets {j : Job σ Call Answer} (h : Work.Emits w J P j.work.run V)
    {s : σ} (hs : J s) (words : Call → List String) (cancelled : Bool) :
    (j.report w words s cancelled).1.Meets P V :=
  Job.report_meets words (((h s _ hs).weaken fun _ _ ha => ha.2).mono fun _ _ _ ha => ha.2)

end Reports

end CloudInventory
