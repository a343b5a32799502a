import CloudInventory.Kube.Store
import CloudInventory.Warning

/-!
Watching a cluster. Starting opens a stream of events for each kind of object, and a watcher takes
the events of its stream as long as the stream lasts and shutdown has not been signalled. Starting
is all or nothing: one refused stream stops every watcher. A stream that brings an error goes on.
-/

namespace CloudInventory.Kube

/-- The watcher of a stream, and whether it still takes events. -/
structure Watcher where
  resource : Resource
  draining : Bool
  deriving DecidableEq, Repr

/-- What is known of a cluster, and how it is being watched. -/
structure Watch where
  stores : Stores
  /-- The watchers that have been started and not stopped, oldest first. -/
  watchers : List Watcher
  /-- Shutdown has been signalled. -/
  cancelled : Bool
  deriving DecidableEq

/-- What starting did: the streams it asked for, whether it succeeded, and the warnings. -/
structure Startup where
  asked : List Resource
  result : Except CollectorError Unit
  warnings : List Warning

namespace Watch

/-- Nothing is known or watched. -/
def idle : Watch := ⟨.empty, [], false⟩

/-- The events that streams begin with, up to the first one that is refused, together with the
streams asked for. -/
def openAll (stream : Resource → Except CollectorError (List Event)) :
    List Resource → List Resource × Except CollectorError (List Event)
  | [] => ([], .ok [])
  | r :: rs =>
    match stream r with
    | .error cause => ([r], .error cause)
    | .ok events =>
      let (asked, rest) := openAll stream rs
      (r :: asked, rest.map fun later => events ++ later)

/-- A watcher whose stream is replaced takes no more events. -/
def superseded (wanted : List Resource) (w : Watcher) : Watcher :=
  if wanted.contains w.resource then { w with draining := false } else w

/-- Watch `wanted`. With `replaces`, a new stream ends the one before it. -/
def start (w : Watch) (replaces : Bool) (wanted : List Resource)
    (stream : Resource → Except CollectorError (List Event)) : Startup × Watch :=
  match openAll stream wanted with
  | (asked, .error cause) => (⟨asked, .error cause, []⟩, { w with watchers := [] })
  | (asked, .ok events) =>
    let ended := w.watchers.filter fun v => replaces && v.draining && wanted.contains v.resource
    let kept := if replaces then w.watchers.map (superseded wanted) else w.watchers
    let started := wanted.map fun r => (⟨r, !w.cancelled⟩ : Watcher)
    (⟨asked, .ok (), ended.map fun _ => .streamEnded⟩,
      { w with
        watchers := kept ++ started
        stores := if w.cancelled then w.stores else w.stores.applyAll events })

/-- Stop every watcher. -/
def stop (w : Watch) : Watch := { w with watchers := [] }

/-- Signal shutdown. -/
def cancel (w : Watch) : Watch :=
  { w with
    cancelled := true
    watchers := w.watchers.map fun v => { v with draining := false } }

/-- The newest watcher of a kind of object takes events. -/
def drains (w : Watch) (r : Resource) : Bool :=
  match (w.watchers.filter fun v => v.resource = r).getLast? with
  | some v => v.draining
  | none => false

/-- Take an event from the stream of `r`, if its watcher takes events. -/
def deliver (w : Watch) (r : Resource) (e : Event) : Bool × Watch :=
  if w.drains r then (true, { w with stores := w.stores.apply e }) else (false, w)

/-- Take an error from the stream of `r`. -/
def deliverError (w : Watch) (r : Resource) (reason : String) : Bool × List Warning :=
  if w.drains r then (true, [.streamError (.watcher (.refused reason))]) else (false, [])

/-- End the stream of `r`. -/
def endStream (w : Watch) (r : Resource) : Bool × List Warning × Watch :=
  if w.drains r then
    (true, [.streamEnded], { w with watchers := w.watchers.map (superseded [r]) })
  else (false, [], w)

end Watch

end CloudInventory.Kube
