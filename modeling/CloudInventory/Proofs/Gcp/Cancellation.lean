import CloudInventory.Proofs.Gcp.Edges
import CloudInventory.Proofs.Program.Prompt

/-!
Shutdown and the jobs for Google Cloud. Each of them is prompt. Only the job for clusters makes
calls between two records: when shutdown overtakes a search for machines, the clusters of the
listing that has been answered are still published, though without children. The project that
shutdown overtakes is the last one from which anything is published.
-/

namespace CloudInventory.Gcp

/-! ### Items -/

section Items

variable (g : Setting) (project : String)

theorem prompt_keep {α : Type} (get : Caches → Cache α) (set : Caches → Cache α → Caches)
    (link : Option String) (value : α) :
    Work.Prompt Eq (fun _ => False) (keep g get set link value) := by
  have hmodify (f : Caches → Caches) :
      Work.Prompt Eq (fun _ => False) (modify f : Step Unit) :=
    Work.Silent.prompt (o := onlooker) (Work.silent_modifyGet _) fun _ _ => rfl
  rcases keep_cases g get set link value with
    ⟨-, hkeep⟩ | ⟨l, -, -, hkeep⟩ | ⟨l, -, -, hkeep⟩
  · exact hkeep ▸ Work.prompt_pure rfl
  · exact hkeep ▸ hmodify _
  · exact hkeep ▸ (hmodify _).seq (fun _ => Work.prompt_crash) fun _ => False.elim

theorem prompt_publishVpc (n : Network) :
    Work.Prompt Eq (fun _ => False) (publishVpc g project n) := by
  unfold publishVpc
  split
  · exact Work.prompt_skip _ _
  · exact (prompt_keep g _ _ n.selfLink _).seq (fun _ => Work.prompt_emit _ _ _ _)
      fun _ => False.elim

theorem prompt_publishSubnet (n : Subnetwork) :
    Work.Prompt Eq (fun _ => False) (publishSubnet g project n) := by
  unfold publishSubnet
  split
  · exact Work.prompt_skip _ _
  · refine (prompt_keep g _ _ n.selfLink _).seq (fun _ => ?_) fun _ => False.elim
    refine (silent_resolveVpc? g n.network).promptThen (fun parents => Work.prompt_emit _ _ _ _)
      fun parents parents' => Work.lags_emit _ _ _ ?_
    simp [Patch.setsEdges]

theorem prompt_publishInstance (zone : String) (i : Instance) :
    Work.Prompt Eq (fun _ => False) (publishInstance g project zone i) := by
  unfold publishInstance
  split
  · exact Work.prompt_skip _ _
  · refine (prompt_keep g _ _ i.selfLink _).seq (fun _ => ?_) fun _ => False.elim
    refine Work.Silent.promptThen (o := onlooker) (Work.silent_modifyGet _)
      (fun parents => Work.prompt_emit _ _ _ _) fun parents parents' => Work.lags_emit _ _ _ ?_
    simp [Patch.setsEdges]

theorem prompt_publishCluster (c : GkeCluster) :
    Work.Prompt Eq (fun _ => False) (publishCluster g project c) := by
  unfold publishCluster
  split
  · exact Work.prompt_skip _ _
  · have hchildren := silent_clusterChildren g project (c.location.getD "") c
    -- the parents may come out differently, and the children once more
    refine (silent_resolveVpc? g c.networkLink?).promptThen (fun parents => ?_)
      fun parents parents' => ?_
    · refine hchildren.promptThen (fun children => Work.prompt_emit _ _ _ _)
        fun children children' => Work.lags_emit _ _ _ ?_
      simp [Patch.setsEdges]
    · refine hchildren.lagsThen hchildren fun children children' => Work.lags_emit _ _ _ ?_
      simp [Patch.setsEdges]

end Items

/-! ### Jobs -/

section Jobs

variable (g : Setting) (project : String)

theorem stops_clustersUnder (parent : String) : Work.Stops (clustersUnder g project parent) :=
  Work.stops_askTotal (prompt_publishCluster g project)

/-- The work for a type in a project fails if shutdown overtakes it. -/
theorem stops_of_workIn? {type : AssetType} {collect : String → Try Nat}
    (hcollect : workIn? g type = some collect) : Work.Stops (collect project) := by
  unfold workIn? at hcollect
  split at hcollect
  · obtain rfl := Option.some.inj hcollect
    exact Work.stops_askTotal fun z : ZoneInstances =>
      Work.prompt_total (prompt_publishInstance g project z.zone) z.instances
  · exact Option.some.inj hcollect ▸ Work.stops_askTotal (prompt_publishVpc g project)
  · exact Option.some.inj hcollect ▸ Work.stops_askTotal (prompt_publishSubnet g project)
  · exact Option.some.inj hcollect ▸ Work.stops_totalAttempt (stops_clustersUnder g project) _
  · cases hcollect

/-- Once shutdown has been signalled nothing is published for a type in a project. -/
theorem idle_of_workIn? {type : AssetType} {collect : String → Try Nat}
    (hcollect : workIn? g type = some collect) :
    Work.Idle (fun _ => True) (collect project).run := by
  have hask {c : Call} {f : Answer c → Try Nat} :
      Work.Idle (fun _ => True) (Work.ask c >>= f : Try Nat).run :=
    Work.Idle.mono (Work.refuses_ask.attempt f) fun _ _ => trivial
  unfold workIn? at hcollect
  split at hcollect
  · exact Option.some.inj hcollect ▸ hask
  · exact Option.some.inj hcollect ▸ hask
  · exact Option.some.inj hcollect ▸ hask
  · exact Option.some.inj hcollect ▸
      Work.idle_totalAttempt (fun _ => Work.refuses_ask.attempt _) _
  · cases hcollect

end Jobs

namespace Turn

variable {config : GcpConfig} {ttl : Nat} {u : Turn}

/-- Every job of a pass is prompt. -/
theorem OfPass.prompt (hu : u.OfPass config ttl) : Work.PromptAnyhow u.job.work.run := by
  obtain ⟨collect, hcollect, hwork⟩ := hu.work
  rw [hwork]
  exact (Work.prompt_scopes (fun project => stops_of_workIn? _ project hcollect)
    (fun project => idle_of_workIn? _ project hcollect) _).anyhow

end Turn

end CloudInventory.Gcp
