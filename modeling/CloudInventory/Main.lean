import CloudInventory.Collection
import CloudInventory.Config.Reading
import CloudInventory.Record.Line
import Std.Time.DateTime.Timestamp

/-!
The program: collectors over a directory of snapshot files, each on its own schedule, until they
are interrupted. Every record is a line of the standard output, and every warning is one of the
standard error. The environment names the configuration, the servers that replace the configured
ones, and the directory. Records go to a messaging server unless the configuration says that they
do not; no connection is built in, so such a configuration is refused.
-/

namespace CloudInventory.Service

/-- A collector that has been started, and when its next pass is due. -/
structure Due where
  collector : Collector
  /-- In milliseconds. -/
  next : Nat

/-- The text of a file, if it can be read. -/
def readText (path : String) : IO (Option String) := do
  try
    return some (← IO.FS.readFile path)
  catch _ => return none

/-- Add the files at paths that can be read to a snapshot. -/
def readFiles (dir : String) (files : Snapshot) (paths : List String) : IO Snapshot :=
  paths.foldlM (fun files path => do
    match ← readText (Snapshot.within dir path) with
    | some text => return files.insert path text
    | none => return files) files

/-- The part of the snapshot in a directory that a collector may ask for. -/
def snapshotFor (dir : String) (c : Collector) : IO Snapshot := do
  let files ← readFiles dir .empty (Snapshot.pathsFor c [])
  match files.azure .listSubscriptions with
  | .ok subscriptions => readFiles dir files (Snapshot.pathsFor c subscriptions)
  | .error _ => return files

/-- The present time. -/
def present : IO Instant := do
  let t ← Std.Time.Timestamp.now
  return (Instant.ofUnix? t.val.second.val t.val.nano.val.toNat).getD .epoch

/-- Print warnings. -/
def complain (warnings : List Warning) : IO Unit :=
  warnings.forM fun w => IO.eprintln w.message

/-- Start a collector; none when it does not start. -/
def launch (dir : String) (now : Nat) (c : Collector) : IO (Option Due) := do
  let (startup, c) := c.start .none (some (← snapshotFor dir c))
  match startup.result with
  | .ok () => return some ⟨c, now⟩
  | .error cause =>
    complain [.startFailed cause]
    return none

/-- Run the next pass of a collector. -/
def runPass (dir : String) (d : Due) : IO Due := do
  let (reports, c, _) :=
    d.collector.pass (← snapshotFor dir d.collector) .none (← present) d.next false
  (reports.flatMap JobReport.records).forM fun r => IO.print r.line
  complain (reports.flatMap JobReport.allWarnings)
  (← IO.getStdout).flush
  return ⟨c, d.next + c.period⟩

/-- Run passes as they come due. -/
partial def serve (dir : String) (dues : List Due) : IO Unit := do
  let now ← IO.monoMsNow
  let dues ← dues.mapM fun d => if d.next ≤ now then runPass dir d else pure d
  match (dues.map Due.next).min? with
  | none => return
  | some next =>
    IO.sleep (min (next - (← IO.monoMsNow)) 60000).toUInt32
    serve dir dues

/-- Run the collectors of a configuration. -/
def collect (c : Config) : IO UInt32 := do
  let dir := (← IO.getEnv "ASSET_SNAPSHOT_DIR").getD "snapshot"
  if c.nats.enabled then
    let cause := CollectorError.natsConnection "no connection is built in"
    IO.eprintln cause.message
    return 1
  let metadata := .error (.metadata "request failed")
  let now ← IO.monoMsNow
  serve dir ((← (c.collectors metadata).mapM (launch dir now)).filterMap id)
  return 0

/-- Run the collectors of the configuration that the environment names. -/
def run : IO UInt32 := do
  let path := (← IO.getEnv "ASSET_COLLECTOR_CONFIG").getD "asset-collector.toml"
  match Config.load (← readText path) (← IO.getEnv "NATS_URL") with
  | .ok c => collect c
  | .error fault =>
    IO.eprintln (CollectorError.configuration fault).message
    return 1

end CloudInventory.Service

/-- Run the program. -/
def main : IO UInt32 := CloudInventory.Service.run
