import CloudInventory.Clock
import CloudInventory.Lifecycle
import CloudInventory.Outcome
import CloudInventory.Record.Patch
import CloudInventory.Warning

/-!
The schedule of collectors. A collector starts, then launches a pass at once and one more after
every period, until shutdown is signalled. A period so long that the clock cannot tell when it is
over breaks the schedule off after the first pass. Passes are not waited for: their jobs go on by
themselves, across later passes and after the end of the schedule. Nothing that a job does, and
nothing that another collector does, moves a pass. Times are in milliseconds.
-/

namespace CloudInventory

/-! ### Jobs in time -/

/-- A part of what a job does. -/
inductive Phase where
  /-- Wait; under guard, the wait is given up when shutdown is signalled. -/
  | wait (duration : Nat) (guarded : Bool)
  | publish (r : Record)

/-- A job with its parts in time. -/
structure TimedJob where
  phases : List Phase
  outcome : Outcome

/-- How a job went: what it published and when, when it ended, and how. -/
structure JobRun where
  published : List (Nat × Record)
  ended : Nat
  outcome : Outcome

namespace TimedJob

/-- A guarded wait that would last until `deadline` is given up because of a signal at `signal`,
which goes first when both come at once. -/
def givenUp (signal : Option Nat) (deadline : Nat) : Bool :=
  match signal with
  | some c => c ≤ deadline
  | none => false

/-- Run the rest of a job from `now`. -/
def runFrom (signal : Option Nat) (outcome : Outcome) : List Phase → Nat → JobRun
  | [], now => ⟨[], now, outcome⟩
  | .wait duration guarded :: rest, now =>
    if guarded && givenUp signal (now + duration) then
      ⟨[], max now (signal.getD now), .error .cancelled⟩
    else runFrom signal outcome rest (now + duration)
  | .publish r :: rest, now =>
    let run := runFrom signal outcome rest now
    { run with published := (now, r) :: run.published }

/-- Run a job that is launched at `now`. -/
def run (j : TimedJob) (signal : Option Nat) (now : Nat) : JobRun :=
  runFrom signal j.outcome j.phases now

/-- A part of the job is guarded. -/
def isGuarded (j : TimedJob) : Bool :=
  j.phases.any fun p => match p with | .wait _ guarded => guarded | .publish _ => false

end TimedJob

/-! ### What happens -/

/-- What happens in a schedule. -/
inductive Happening where
  /-- A start has ended, after or before the signal. -/
  | started (cancelled : Bool)
  | launched (pass : Nat)
  | began (pass job : Nat) (guarded : Bool)
  | ended (pass job : Nat) (guarded : Bool) (result : Except CollectorError Nat)
  | stopped

/-- The label of a job. -/
def jobLabel (pass job : Nat) (guarded : Bool) : String :=
  toString pass ++ "." ++ toString job ++ (if guarded then "*" else "")

/-- The text of what happens. -/
def Happening.text : Happening → String
  | started true => "start cancelled=true"
  | started false => "start cancelled=false"
  | launched pass => "pass " ++ toString pass
  | began pass job guarded => "begin " ++ jobLabel pass job guarded
  | ended pass job guarded (.ok n) =>
    "end " ++ jobLabel pass job guarded ++ " ok " ++ toString n
  | ended pass job guarded (.error cause) =>
    "end " ++ jobLabel pass job guarded ++ " " ++ cause.kind
  | stopped => "stop"

/-- What happens, or a warning of it, at a time. -/
inductive Entry where
  | happening (h : Happening)
  | warning (w : Warning)

namespace TimedJob

/-- What happens when a job is launched at `now` as the `job`-th one of a pass. A job that panics
has no end. -/
def entries (j : TimedJob) (signal : Option Nat) (pass job now : Nat) : List (Nat × Entry) :=
  let run := j.run signal now
  let ended (result : Except CollectorError Nat) : Nat × Entry :=
    (run.ended, .happening (.ended pass job j.isGuarded result))
  (now, .happening (.began pass job j.isGuarded)) ::
    match run.outcome with
    | .ok n => [ended (.ok n)]
    | .error .cancelled => [ended (.error .cancelled)]
    | .error cause => [ended (.error cause), (run.ended, .warning (.taskFailed cause))]
    | .panic => []

/-- What happens when jobs are launched at `now`. -/
def entriesOf (signal : Option Nat) (pass now : Nat) (jobs : List TimedJob) :
    List (Nat × Entry) :=
  (jobs.zipIdx.map fun (j, i) => j.entries signal pass i now).flatten

end TimedJob

/-! ### One collector -/

/-- How starting a collector ends. -/
inductive StartOutcome where
  | ok
  | error (cause : CollectorError)
  | panic
  deriving DecidableEq

/-- What a schedule needs to know of a collector. -/
structure Plan where
  provider : Provider
  period : Nat
  /-- How long starting takes. -/
  startTime : Nat
  startOutcome : StartOutcome
  /-- The jobs of a pass. -/
  jobs : Nat → List TimedJob

/-- When shutdown is signalled: before the schedule begins, or at a time. -/
inductive Signal where
  | before
  | at (time : Nat)
  deriving DecidableEq, Repr

/-- The time of the signal. -/
def Signal.time : Signal → Nat
  | before => 0
  | .at time => time

/-- How a schedule ended for a collector. -/
structure Summary where
  passes : Nat
  final : Lifecycle
  deriving DecidableEq, Repr

/-- A pass and when it was launched. -/
structure Launch where
  pass : Nat
  time : Nat
  deriving DecidableEq, Repr

/-- The course of a schedule for a collector. -/
structure Course where
  launches : List Launch
  result : Except CollectorError Summary
  /-- When the schedule ended. -/
  ended : Nat
  /-- The start and the end, as far as they took place, and the warnings. -/
  entries : List (Nat × Entry)

namespace Lifecycle.Log

/-- The number of passes launched so far, as the log has it. -/
def passes (l : Log) : Nat :=
  match l.current with
  | .running n => n
  | _ => (l.history.map fun t => match t.target with | .running n => n | _ => 0).foldl max 0

/-- The summary of a log. -/
def summary (l : Log) : Summary := ⟨l.passes, l.current⟩

end Lifecycle.Log

namespace Plan

/-- Launch a pass after every period from `now` until the signal, which goes first when both come
at once. -/
def ticks (period signal now : Nat) (log : Lifecycle.Log) : List Launch × Lifecycle.Log :=
  if _h : 0 < period ∧ now + period < signal then
    match log.step .tick with
    | (.ok .runPass, log) =>
      let (launches, final) := ticks period signal (now + period) log
      (⟨log.passes, now + period⟩ :: launches, final)
    | (_, log) => ([], log)
  else ([], (log.step .cancel).2)
termination_by signal - now
decreasing_by omega

/-- What is left to say of a collector whose schedule broke off. -/
def breakdown (p : Plan) : CollectorError :=
  .watcher (.refused (p.provider.text ++ " collector task failed"))

/-- The course of the schedule for a collector. -/
def course (p : Plan) (clock : Clock) (signal : Signal) : Course :=
  if p.period = 0 then
    let fault := Lifecycle.Fault.preconditionFailed
      (p.provider.text ++ " collector period must be greater than zero")
    ⟨[], .error (.transition fault), 0, []⟩
  else
    match signal with
    | .before => ⟨[], .ok ((Lifecycle.Log.starting .idle).step .cancel).2.summary, 0, []⟩
    | .at c =>
      let t := p.startTime
      let started := (t, Entry.happening (.started (c ≤ t)))
      match p.startOutcome with
      | .panic => ⟨[], .error p.breakdown, t, [started]⟩
      | .error cause =>
        ⟨[], .error cause, t,
          [started, (t, .happening .stopped), (t, .warning (.startFailed cause))]⟩
      | .ok =>
        if Clock.tells (clock.reading t) p.period then
          let log := ((Lifecycle.Log.starting .idle).step .start).2
          let (launches, final) := ticks p.period c t log
          ⟨⟨1, t⟩ :: launches, .ok final.summary, max c t,
            [started, (max c t, .happening .stopped)]⟩
        else ⟨[⟨1, t⟩], .error p.breakdown, t, [started]⟩

/-- All that happens because of a collector: its course, its passes and their jobs. -/
def entries (p : Plan) (clock : Clock) (signal : Signal) : List (Nat × Entry) :=
  let course := p.course clock signal
  course.entries ++ course.launches.flatMap fun l =>
    (l.time, .happening (.launched l.pass)) ::
      TimedJob.entriesOf (some signal.time) l.pass l.time (p.jobs l.pass)

/-- The records that the jobs of a collector publish, with their times. -/
def published (p : Plan) (clock : Clock) (signal : Signal) : List (Nat × Record) :=
  (p.course clock signal).launches.flatMap fun l =>
    (p.jobs l.pass).flatMap fun j => (j.run (some signal.time) l.time).published

end Plan

/-! ### All collectors -/

/-- How the schedule ended for each collector, in their order. -/
def runAll (plans : List Plan) (clock : Clock) (signal : Signal) :
    List (Provider × Except CollectorError Summary) :=
  plans.map fun p => (p.provider, (p.course clock signal).result)

/-- When the schedules of all collectors have ended. -/
def allEnded (plans : List Plan) (clock : Clock) (signal : Signal) : Nat :=
  (plans.map fun p => (p.course clock signal).ended).foldl max 0

/-- The records that have been published when the schedules of all collectors have ended. -/
def publishedByEnd (plans : List Plan) (clock : Clock) (signal : Signal) : List (Nat × Record) :=
  (plans.flatMap fun p => p.published clock signal).filter fun e =>
    e.1 ≤ allEnded plans clock signal

/-! ### A group of jobs -/

/-- When jobs that are launched together have all ended, and a signal has come that was to. -/
def joinedAt (signal : Option Nat) (jobs : List TimedJob) : Nat :=
  (jobs.map fun j => (j.run signal 0).ended).foldl max (signal.getD 0)

/-- The warnings of waiting for jobs: one for each that panicked. -/
def joinWarnings (signal : Option Nat) (jobs : List TimedJob) : List Warning :=
  (jobs.filter fun j => (j.run signal 0).outcome = .panic).map fun _ => .taskPanicked

end CloudInventory
