import CloudInventory.Collection
import CloudInventory.Messaging
import CloudInventory.Proofs.Task.Documents
import CloudInventory.Proofs.Text.Fields

/-!
Where published records go. A destination tells the type and the effective namespace that it is made
of, since no type has a dash in its text: what stands between the first two dashes is the type, and
all behind them the namespace, whatever it holds. Everything that tasks publish goes to the
destination of its type under the namespace of the configuration, and so does everything that
collectors publish pass by pass, whose jobs are tasks; nothing is dropped on the way.
-/

namespace CloudInventory

/-! ### Destinations -/

theorem AssetType.dash_not_mem_text (t : AssetType) : '-' ∉ t.text.toList := by
  cases t <;> decide

/-- An absent namespace and an empty one mean the default, and any other means itself. -/
theorem effectiveNamespace_eq_iff {space : Option String} {s : String} :
    effectiveNamespace space = s ↔
      (space = none ∨ space = some "") ∧ s = "default" ∨ space = some s ∧ s ≠ "" := by
  unfold effectiveNamespace
  cases space with
  | none => simp [eq_comm]
  | some own =>
    by_cases hown : own = ""
    · simp only [hown, if_true, or_true, true_and, Option.some.injEq]
      refine ⟨fun h => .inl h.symm, ?_⟩
      rintro (rfl | ⟨rfl, hne⟩)
      · rfl
      · exact absurd rfl hne
    · simp only [hown, if_false, reduceCtorEq, Option.some.injEq, or_false, false_and, false_or]
      exact ⟨fun h => ⟨h, h ▸ hown⟩, And.left⟩

/-- The type and the effective namespace that a destination tells. -/
def ofDestination? (s : String) : Option (AssetType × String) := do
  let (_, rest) ← Text.cut '-' s
  let (type, space) ← Text.cut '-' rest
  return (← AssetType.ofText? type, space)

theorem ofDestination?_destinationFor (t : AssetType) (space : Option String) :
    ofDestination? (destinationFor t space) = some (t, effectiveNamespace space) := by
  have hfront : Text.cut '-' (destinationFor t space) =
      some ("assets", t.text ++ String.singleton '-' ++ effectiveNamespace space) :=
    Text.cut_eq_some_iff.2 ⟨String.toList_inj.1 (by simp [destinationFor]), by decide⟩
  have hrest : Text.cut '-' (t.text ++ String.singleton '-' ++ effectiveNamespace space) =
      some (t.text, effectiveNamespace space) :=
    Text.cut_eq_some_iff.2 ⟨rfl, t.dash_not_mem_text⟩
  simp only [ofDestination?, hfront, hrest, AssetType.ofText?_text, Option.bind_eq_bind,
    Option.bind_some, Option.pure_def]

/-- Destinations are the same for one type and one effective namespace only. -/
theorem destinationFor_inj {t t' : AssetType} {space space' : Option String} :
    destinationFor t space = destinationFor t' space' ↔
      t = t' ∧ effectiveNamespace space = effectiveNamespace space' := by
  constructor
  · intro h
    have hread := congrArg ofDestination? h
    rw [ofDestination?_destinationFor, ofDestination?_destinationFor] at hread
    exact Prod.mk.inj (Option.some.inj hread)
  · rintro ⟨rfl, hspace⟩
    rw [destinationFor, destinationFor, hspace]

/-! ### Records on their way -/

/-- A record has a type, and goes where records of the type go under a namespace. -/
def Record.GoesTo (space : Option String) (r : Record) : Prop :=
  ∃ t, r.type = some t ∧ r.subject? = some (destinationFor t space)

theorem Record.Plain.goesTo {space : Option String} {r : Record} (h : r.Plain space) :
    r.GoesTo space := by
  obtain ⟨t, ht⟩ := Option.isSome_iff_exists.1 h.typed
  refine ⟨t, ht, ?_⟩
  rw [subject?, h.destination, ht]
  rfl

/-- Records of two namespaces go to one place only when they have one type, and one effective
namespace. -/
theorem Record.GoesTo.subject?_eq_iff {space space' : Option String} {r r' : Record}
    (h : r.GoesTo space) (h' : r'.GoesTo space') :
    r.subject? = r'.subject? ↔
      r.type = r'.type ∧ effectiveNamespace space = effectiveNamespace space' := by
  obtain ⟨t, ht, hsubject⟩ := h
  obtain ⟨t', ht', hsubject'⟩ := h'
  rw [hsubject, hsubject', ht, ht', Option.some.injEq, Option.some.injEq, destinationFor_inj]

/-- Each of some records goes where those of its type go under a namespace: what is sent are the
documents of all of them, in their order, and there is no warning. -/
structure Message.Delivers (space : Option String) (rs : List Record) : Prop where
  goesTo : ∀ r ∈ rs, r.GoesTo space
  bodies : (ofRecords rs).map Message.body = rs.map fun r => .ofDict r.document
  warnings : warnings rs = []

theorem Message.delivers_of_goesTo {space : Option String} {rs : List Record}
    (h : ∀ r ∈ rs, r.GoesTo space) : Delivers space rs := by
  induction rs with
  | nil => exact ⟨h, rfl, rfl⟩
  | cons r rs ih =>
    obtain ⟨t, -, hsubject⟩ := h r List.mem_cons_self
    obtain ⟨-, hbodies, hwarnings⟩ := ih fun r' hr' => h r' (List.mem_cons_of_mem r hr')
    have hread : ofRecord r = .ok ⟨destinationFor t space, .ofDict r.document⟩ := by
      rw [ofRecord, hsubject]
    refine ⟨h, ?_, ?_⟩
    · rw [ofRecords, List.filterMap_cons, hread]
      exact congrArg (Json.ofDict r.document :: ·) hbodies
    · rw [Message.warnings, List.filterMap_cons, hread]
      exact hwarnings

/-! ### The tasks of collectors -/

namespace Job

variable {σ Call : Type} {Answer : Call → Type} {w : World Call Answer}
  {words : Call → List String}

/-- Each report of a row of jobs is one of some job. -/
theorem eq_report_of_mem_reportAll {jobs : List (Job σ Call Answer)} {s : σ} {cancelled : Bool}
    {report : JobReport} (h : report ∈ (reportAll w words jobs s cancelled).1) :
    ∃ job ∈ jobs, ∃ s cancelled, report = (job.report w words s cancelled).1 := by
  induction jobs generalizing s cancelled with
  | nil => cases h
  | cons job jobs ih =>
    rw [reportAll] at h
    rcases List.mem_cons.1 h with rfl | h
    · exact ⟨job, List.mem_cons_self, s, cancelled, rfl⟩
    · obtain ⟨job', hmem, hreport⟩ := ih h
      exact ⟨job', List.mem_cons_of_mem job hmem, hreport⟩

end Job

namespace Collector

variable {c : Collector} {files : Snapshot} {d : Disturbance} {report : JobReport}

/-- What a pass reports is what tasks do that have the collector's namespace. -/
theorem exists_task_of_mem_pass {stamp : Instant} {now : Nat} {cancelled : Bool}
    (h : report ∈ (c.pass files d stamp now cancelled).1) :
    ∃ task : Task, task.space = c.base.space ∧ task.report.records = report.records := by
  unfold pass at h
  cases c with
  | aws config =>
    obtain ⟨job, hjob, s, cancelled, rfl⟩ := Job.eq_report_of_mem_reportAll h
    exact ⟨.aws config stamp job hjob _ cancelled, rfl, rfl⟩
  | azure config =>
    obtain ⟨job, hjob, s, cancelled, rfl⟩ := Job.eq_report_of_mem_reportAll h
    exact ⟨.azure config stamp job hjob _ cancelled, rfl, rfl⟩
  | gcp g =>
    obtain ⟨job, hjob, caches, cancelled, rfl⟩ := Job.eq_report_of_mem_reportAll h
    exact ⟨.gcp g.config g.ttl ⟨stamp, now, job, _, cancelled⟩ hjob caches, rfl, rfl⟩
  | kube k =>
    obtain ⟨report', hreport, rfl⟩ := List.mem_map.1 h
    obtain ⟨job, hjob, s, cancelled, rfl⟩ := Job.eq_report_of_mem_reportAll hreport
    exact ⟨.kube k.config _ stamp _ job hjob _ cancelled, rfl, rfl⟩

@[simp] theorem base_pass (c : Collector) (files : Snapshot) (d : Disturbance) (stamp : Instant)
    (now : Nat) (cancelled : Bool) : (c.pass files d stamp now cancelled).2.1.base = c.base := by
  cases c <;> rfl

@[simp] theorem base_start (c : Collector) (d : Disturbance) (files : Option Snapshot) :
    (c.start d files).2.base = c.base := by
  cases c <;> rfl

theorem passes_cons (c : Collector) (files : Snapshot) (clock : Clock) (stamp : Nat → Instant)
    (signal : Nat) (l : Launch) (launches : List Launch) :
    c.passes files clock stamp signal (l :: launches) =
      let ended := c.pass files .none (stamp l.time) (clock.reading l.time) (signal < l.time)
      ended.1 ++ ended.2.1.passes files clock stamp signal launches := rfl

theorem exists_task_of_mem_passes {clock : Clock} {stamp : Nat → Instant} {signal : Nat}
    {launches : List Launch} (h : report ∈ c.passes files clock stamp signal launches) :
    ∃ task : Task, task.space = c.base.space ∧ task.report.records = report.records := by
  induction launches generalizing c with
  | nil => cases h
  | cons l launches ih =>
    rw [passes_cons] at h
    rcases List.mem_append.1 h with h | h
    · exact exists_task_of_mem_pass h
    · obtain ⟨task, hspace, hrecords⟩ := ih h
      exact ⟨task, hspace.trans (by rw [base_pass]), hrecords⟩

/-- What a collector publishes has been published by tasks that have its namespace. -/
theorem exists_task_of_mem_published {clock : Clock} {stamp : Nat → Instant} {signal : Signal}
    {r : Record} (h : r ∈ (c.collect files clock stamp signal).published) :
    ∃ task : Task, task.space = c.base.space ∧ r ∈ task.report.records := by
  obtain ⟨report, hreport, hr⟩ := List.mem_flatMap.1 h
  obtain ⟨task, hspace, hrecords⟩ := exists_task_of_mem_passes hreport
  exact ⟨task, hspace.trans (congrArg BaseConfig.space (c.base_start .none (some files))),
    hrecords ▸ hr⟩

end Collector

/-! ### The streams -/

namespace Task

theorem goesTo_of_mem_records (task : Task) {r : Record} (hr : r ∈ task.report.records) :
    r.GoesTo task.space :=
  (task.plain_of_mem_records hr).goesTo

/-- CORRECT: two destinations are the same exactly when the types are and the effective namespaces
are, whatever characters the namespaces have; the effective namespace is the one given, or the
default if there is none or an empty one. And every record that a task publishes goes to the
destination of its type under the namespace of its collector, whatever calls are answered, so that
none is dropped; neither is one of a collector's passes. So records of two tasks go to one place
exactly when they have one type and the collectors one effective namespace. -/
theorem streams_apart :
    (∀ (t t' : AssetType) (space space' : Option String),
      destinationFor t space = destinationFor t' space' ↔
        t = t' ∧ effectiveNamespace space = effectiveNamespace space') ∧
      (∀ space s, effectiveNamespace space = s ↔
        (space = none ∨ space = some "") ∧ s = "default" ∨ space = some s ∧ s ≠ "") ∧
      (∀ task : Task, Message.Delivers task.space task.report.records) ∧
      (∀ (c : Collector) (files : Snapshot) (clock : Clock) (stamp : Nat → Instant)
          (signal : Signal),
        Message.Delivers c.base.space (c.collect files clock stamp signal).published) ∧
      ∀ task task' : Task, ∀ r ∈ task.report.records, ∀ r' ∈ task'.report.records,
        (r.subject? = r'.subject? ↔ r.type = r'.type ∧
          effectiveNamespace task.space = effectiveNamespace task'.space) := by
  refine ⟨fun _ _ _ _ => destinationFor_inj, fun _ _ => effectiveNamespace_eq_iff,
    fun task => Message.delivers_of_goesTo fun _ => task.goesTo_of_mem_records,
    fun c files clock stamp signal => Message.delivers_of_goesTo fun r hr => ?_,
    fun task task' r hr r' hr' => ?_⟩
  · obtain ⟨task, hspace, hr⟩ := c.exists_task_of_mem_published hr
    exact hspace ▸ task.goesTo_of_mem_records hr
  · exact (task.goesTo_of_mem_records hr).subject?_eq_iff (task'.goesTo_of_mem_records hr')

/-- Networks in a single region are collected under a namespace. -/
def vpcsUnder (space : Option String) : AwsConfig :=
  { vpcsInRegion with base := { BaseConfig.standard with space } }

theorem vpcsUnder_mem_pass (space : Option String) :
    (⟨.awsVpc, "r", Aws.collectVpcs ⟨.epoch, space⟩ "r"⟩ : Job Unit Aws.Call Aws.Answer) ∈
      Aws.pass (vpcsUnder space) .epoch := by
  refine List.mem_flatMap.2 ⟨"r", List.mem_singleton_self _, List.mem_filterMap.2 ?_⟩
  exact ⟨.awsVpc, List.mem_filter.2 ⟨by decide, rfl⟩, rfl⟩

/-- The task that collects the networks. -/
def vpcsTask (space : Option String) : Task :=
  .aws (vpcsUnder space) .epoch _ (vpcsUnder_mem_pass space) taggedVpcs false

/-- One namespace is spelled like another with a type in front; the other two are the default. -/
theorem streams_vpcsTask : ∃ r₁ ∈ (vpcsTask (some "gcp.vpc-b")).report.records,
    ∃ r₂ ∈ (vpcsTask (some "")).report.records, ∃ r₃ ∈ (vpcsTask none).report.records,
      r₁.subject? = some "assets-aws.vpc-gcp.vpc-b" ∧ r₁.subject? ≠ r₂.subject? ∧
        r₂.subject? = r₃.subject? := by
  have hfirst (space : Option String)
      (htypes : (vpcsTask space).report.records.map Record.type =
        [some .awsVpc, some .awsVpc]) :
      ∃ r ∈ (vpcsTask space).report.records, r.type = some .awsVpc :=
    List.mem_map.1 (htypes ▸ List.mem_cons_self)
  obtain ⟨r₁, hr₁, htype₁⟩ := hfirst (some "gcp.vpc-b") (by decide +kernel)
  obtain ⟨r₂, hr₂, htype₂⟩ := hfirst (some "") (by decide +kernel)
  obtain ⟨r₃, hr₃, htype₃⟩ := hfirst none (by decide +kernel)
  obtain ⟨-, -, hdelivers, -, hapart⟩ := streams_apart
  obtain ⟨t, ht, hsubject⟩ := (hdelivers _).goesTo r₁ hr₁
  obtain rfl := Option.some.inj (htype₁.symm.trans ht)
  refine ⟨r₁, hr₁, r₂, hr₂, r₃, hr₃, hsubject, fun h => ?_, ?_⟩
  · exact absurd ((hapart _ _ r₁ hr₁ r₂ hr₂).1 h).2 (by decide)
  · exact (hapart _ _ r₂ hr₂ r₃ hr₃).2 ⟨htype₂.trans htype₃.symm, rfl⟩

end Task

end CloudInventory
