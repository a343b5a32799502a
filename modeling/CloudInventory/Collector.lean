import CloudInventory.Kube.Watch
import CloudInventory.Outcome
import CloudInventory.Snapshot

/-!
Collectors over a snapshot. A collector is a provider's section with what it keeps between passes.
A pass runs its jobs one after another. Calls are answered from the snapshot, unless a disturbance
makes them fail or lets shutdown overtake them.
-/

namespace CloudInventory

/-- What disturbs calls. A call is named by its words with blanks between them, or by the first
word alone. -/
structure Disturbance where
  /-- The calls that fail. -/
  failing : List String
  /-- The call that shutdown overtakes, and when. -/
  signal : Option (String × Moment)

namespace Disturbance

/-- Calls are not disturbed. -/
def none : Disturbance := ⟨[], .none⟩

/-- A name stands for the call with the given words. -/
def names (words : List String) (name : String) : Bool :=
  name = Text.joined " " words || words.head? = some name

/-- The world in which calls are answered by `answer` unless they are disturbed. -/
def world {Call : Type} {Answer : Call → Type} (d : Disturbance) (provider : Provider)
    (words : Call → List String) (answer : (c : Call) → Except CollectorError (Answer c)) :
    World Call Answer where
  answer := fun _ c =>
    if d.failing.any (names (words c)) then
      .error (.provider provider.text ((words c).headD "") (.refused "injected failure"))
    else answer c
  signal := fun _ c =>
    d.signal.bind fun (name, moment) => if names (words c) name then some moment else .none

end Disturbance

/-- What a job did. -/
structure JobReport where
  type : AssetType
  scope : String
  outcome : Outcome
  records : List Record
  /-- The words of its calls. -/
  calls : List (List String)
  warnings : List Warning

namespace Job

variable {σ Call : Type} {Answer : Call → Type}

/-- Run a job: what it did, the state it leaves, and whether shutdown has been signalled. What one
that breaks off has done to the state stays done. -/
def report (w : World Call Answer) (words : Call → List String) (j : Job σ Call Answer) (s : σ)
    (cancelled : Bool) : JobReport × σ × Bool :=
  let (ended, session) := (j.work.run.run s).run w (.start cancelled)
  let (outcome, s) := match ended with
    | .result (result, s) => (Outcome.ofResult result, s)
    | .brokenOff s => (.panic, s)
  (⟨j.type, j.scope, outcome, session.records, session.calls.map words, session.warnings⟩, s,
    session.cancelled)

section

variable {w : World Call Answer} {words : Call → List String} {j : Job σ Call Answer} {s : σ}
  {cancelled : Bool} {t : Session Call}

theorem report_of_result {result : Except CollectorError Nat} {s' : σ}
    (h : (j.work.run s).run w (.start cancelled) = (.result (result, s'), t)) :
    j.report w words s cancelled =
      (⟨j.type, j.scope, .ofResult result, t.records, t.calls.map words, t.warnings⟩, s',
        t.cancelled) := by
  rw [report, show j.work.run.run s = j.work.run s from rfl, h]

theorem report_of_brokenOff {left : σ}
    (h : (j.work.run s).run w (.start cancelled) = (.brokenOff left, t)) :
    j.report w words s cancelled =
      (⟨j.type, j.scope, .panic, t.records, t.calls.map words, t.warnings⟩, left,
        t.cancelled) := by
  rw [report, show j.work.run.run s = j.work.run s from rfl, h]

end

/-- Run jobs one after another. -/
def reportAll (w : World Call Answer) (words : Call → List String) :
    List (Job σ Call Answer) → σ → Bool → List JobReport × σ × Bool
  | [], s, cancelled => ([], s, cancelled)
  | j :: js, s, cancelled =>
    let (report, s, cancelled) := j.report w words s cancelled
    let (reports, s, cancelled) := reportAll w words js s cancelled
    (report :: reports, s, cancelled)

end Job

/-- A collector for Google Cloud with its caches, whose entries live for `ttl` milliseconds. -/
structure GcpCollector where
  config : GcpConfig
  ttl : Nat
  caches : Gcp.Caches

/-- A collector for Kubernetes with what it watches. It looks metadata up if it has a way to. -/
structure KubeCollector where
  config : KubeConfig
  watch : Kube.Watch
  metadata : Option (Except CollectorError Json)

/-- A collector of some provider. -/
inductive Collector where
  | aws (config : AwsConfig)
  | azure (config : AzureConfig)
  | gcp (c : GcpCollector)
  | kube (c : KubeCollector)

namespace GcpCollector

/-- The collector of a section, with caches of a given capacity; none when entries would live
longer than can be counted. -/
def ofConfig? (c : GcpConfig) (capacity : Nat) : Option GcpCollector :=
  c.base.cacheTtl.map fun seconds => ⟨c, seconds * 1000, .withCapacity capacity⟩

end GcpCollector

namespace KubeCollector

/-- The collector of a section. -/
def ofConfig (c : KubeConfig) (metadata : Option (Except CollectorError Json)) : KubeCollector :=
  ⟨c, .idle, metadata⟩

/-- Start watching what a snapshot holds, or streams of events that begin with nothing. -/
def start (k : KubeCollector) (d : Disturbance) (files : Option Snapshot) :
    Kube.Startup × KubeCollector :=
  let stream (r : Kube.Resource) : Except CollectorError (List Kube.Event) :=
    if d.failing.any (Disturbance.names ["watch", r.text]) then
      .error (.watcher (.refused (r.text ++ " watch forbidden")))
    else
      match files with
      | some files => files.watch r
      | none => .ok []
  let (startup, watch) := k.watch.start files.isNone (Kube.watched k.config) stream
  (startup, { k with watch })

/-- What looking metadata up answers. -/
def answer (k : KubeCollector) : (c : Kube.Call) → Except CollectorError (Kube.Answer c)
  | .metadata => k.metadata.getD (.error .cancelled)

end KubeCollector

namespace Collector

/-- Whom a collector collects from. -/
def provider : Collector → Provider
  | aws _ => .aws
  | azure _ => .azure
  | gcp _ => .gcp
  | kube _ => .kube

/-- The settings of a collector. -/
def base : Collector → BaseConfig
  | aws c => c.base
  | azure c => c.base
  | gcp c => c.config.base
  | kube c => c.config.base

/-- Run a pass when the clock reads `now`: what its jobs did, the collector after it, and whether
shutdown has been signalled. -/
def pass (c : Collector) (files : Snapshot) (d : Disturbance) (stamp : Instant) (now : Nat)
    (cancelled : Bool) : List JobReport × Collector × Bool :=
  match c with
  | aws config =>
    let w := d.world .aws Aws.Call.words files.aws
    let (reports, _, cancelled) :=
      Job.reportAll w Aws.Call.words (Aws.pass config stamp) () cancelled
    (reports, aws config, cancelled)
  | azure config =>
    let w := d.world .azure Azure.Call.words files.azure
    let (reports, _, cancelled) :=
      Job.reportAll w Azure.Call.words (Azure.pass config stamp) () cancelled
    (reports, azure config, cancelled)
  | gcp g =>
    let w := d.world .gcp Gcp.Call.words files.gcp
    let (reports, caches, cancelled) :=
      Job.reportAll w Gcp.Call.words (Gcp.pass g.config g.ttl stamp now) g.caches cancelled
    (reports, gcp { g with caches }, cancelled)
  | kube k =>
    let w : World Kube.Call Kube.Answer := ⟨fun _ => k.answer, fun _ _ => none⟩
    let jobs := Kube.pass k.config k.metadata.isSome stamp k.watch.stores
    let (reports, _, cancelled) := Job.reportAll w (fun _ => []) jobs () cancelled
    (reports.map fun r => { r with calls := [] }, kube k, cancelled)

end Collector

end CloudInventory
