import CloudInventory.Collector

/-!
Histories of a watched cluster. What is known of nodes and of pods is put together from the changes
that the streams bring while their watchers run. The main statement says that each of the two stores
is the fold of just these changes, and what follows from that for histories that differ in the order
of the two streams, in errors, or in what comes after an end.
-/

namespace CloudInventory

namespace Kube

/-! ### Changes -/

/-- What is kept of a kind of object. -/
@[reducible]
def Resource.Kept : Resource → Type
  | nodes => Node
  | pods => Pod

/-- The key under which an object is kept. -/
def Resource.key : (r : Resource) → r.Kept → String
  | nodes, n => n.key
  | pods, p => p.key

/-- An object of a kind. -/
def Resource.object : (r : Resource) → r.Kept → Object
  | nodes, n => .node n
  | pods, p => .pod p

/-- What is known of a kind of object. -/
def Stores.of (s : Stores) : (r : Resource) → Dict r.Kept
  | .nodes => s.nodes
  | .pods => s.pods

/-- Something has happened to an object of a kind. -/
structure Change (r : Resource) where
  kind : EventKind
  object : r.Kept

namespace Change

variable {r r' : Resource}

/-- A change as an event. -/
def event (c : Change r) : Event := ⟨c.kind, r.object c.object⟩

/-- What is added or updated is set under its key, and the key of what is deleted is removed. -/
def apply (known : Dict r.Kept) (c : Change r) : Dict r.Kept :=
  match c.kind with
  | .added => known.insert (r.key c.object) c.object
  | .updated => known.insert (r.key c.object) c.object
  | .deleted => known.erase (r.key c.object)

/-- A change as one of a given kind of object, if it is of that kind. -/
def about (r : Resource) : {r' : Resource} → Change r' → List (Change r) :=
  fun {r'} => match r, r' with
    | .nodes, .nodes => fun c => [c]
    | .pods, .pods => fun c => [c]
    | _, _ => fun _ => []

end Change

/-! ### Incidents -/

/-- What can happen to a watched cluster. A collector starts all its watchers at once, or one after
the other if a stream brings changes while the next one is still being opened. -/
inductive Incident where
  | start (replaces : Bool) (wanted : List Resource)
      (stream : (r : Resource) → Except CollectorError (List (Change r)))
  | stop
  | shutdown
  | change (r : Resource) (c : Change r)
  | error (r : Resource) (reason : String)
  | streamEnd (r : Resource)

/-- A cluster after an incident. An error only leads to a warning. -/
def Watch.take (w : Watch) : Incident → Watch
  | .start replaces wanted stream =>
    (w.start replaces wanted fun r => (stream r).map fun cs => cs.map Change.event).2
  | .stop => w.stop
  | .shutdown => w.cancel
  | .change r c => (w.deliver r c.event).2
  | .error _ _ => w
  | .streamEnd r => (w.endStream r).2.2

/-- A cluster after a history. -/
def Watch.after (w : Watch) (history : List Incident) : Watch := history.foldl Watch.take w

/-- None of the wanted streams is refused. -/
def granted (wanted : List Resource)
    (stream : (r : Resource) → Except CollectorError (List (Change r))) : Bool :=
  wanted.all fun r => match stream r with
    | .ok _ => true
    | .error _ => false

/-- The changes that a stream begins with. -/
def initial {r : Resource} : Except CollectorError (List (Change r)) → List (Change r)
  | .ok cs => cs
  | .error _ => []

namespace Watch

theorem take_change (w : Watch) (r : Resource) (c : Change r) :
    w.take (.change r c) =
      if w.drains r then { w with stores := w.stores.apply c.event } else w := by
  show (w.deliver r c.event).2 = _
  unfold deliver
  split <;> rfl

theorem take_streamEnd (w : Watch) (r : Resource) :
    w.take (.streamEnd r) =
      if w.drains r then { w with watchers := w.watchers.map (superseded [r]) } else w := by
  show (w.endStream r).2.2 = _
  unfold endStream
  split <;> rfl

end Watch

/-! ### What is to be known -/

/-- Whether the watcher of a kind of object runs, and whether shutdown has been signalled. -/
structure Tap where
  running : Bool
  shut : Bool

namespace Tap

/-- No watcher runs. -/
def closed : Tap := ⟨false, false⟩

/-- The watcher of `r` after an incident. A start that is refused stops all watchers. -/
def next (r : Resource) (t : Tap) : Incident → Tap
  | .start _ wanted stream =>
    if granted wanted stream then
      if r ∈ wanted then { t with running := !t.shut } else t
    else { t with running := false }
  | .stop => { t with running := false }
  | .shutdown => ⟨false, true⟩
  | .streamEnd r' => if r' = r then { t with running := false } else t
  | _ => t

/-- The changes to objects of kind `r` that an incident brings while their watcher runs. -/
def brings (r : Resource) (t : Tap) : Incident → List (Change r)
  | .start _ wanted stream =>
    if granted wanted stream && !t.shut then
      wanted.flatMap fun r' => (initial (stream r')).flatMap (Change.about r)
    else []
  | .change _ c => if t.running then Change.about r c else []
  | _ => []

/-- The changes to objects of kind `r` that a history delivers while their watcher runs. -/
def delivered (r : Resource) : Tap → List Incident → List (Change r)
  | _, [] => []
  | t, i :: later => t.brings r i ++ delivered r (t.next r i) later

end Tap

/-! ### Watchers -/

/-- The newest watcher of a kind of object. -/
def newest (r : Resource) (vs : List Watcher) : Option Watcher :=
  (vs.filter fun v => v.resource = r).getLast?

theorem drains_eq_newest (w : Watch) (r : Resource) :
    w.drains r = (newest r w.watchers).elim false Watcher.draining := by
  rw [Watch.drains, newest]
  cases (w.watchers.filter fun v => v.resource = r).getLast? <;> rfl

theorem newest_append (r : Resource) (vs us : List Watcher) :
    newest r (vs ++ us) = (newest r us).or (newest r vs) := by
  rw [newest, List.filter_append, List.getLast?_append]
  rfl

/-- What is done to all watchers is done to the newest one. -/
theorem newest_map {f : Watcher → Watcher} (hf : ∀ v, (f v).resource = v.resource) (r : Resource)
    (vs : List Watcher) : newest r (vs.map f) = (newest r vs).map f := by
  rw [newest, List.filter_map, List.getLast?_map, newest]
  refine congrArg (fun l : List Watcher => l.getLast?.map f) (List.filter_congr fun v _ => ?_)
  simp [hf]

theorem resource_of_newest {r : Resource} {vs : List Watcher} {v : Watcher}
    (h : newest r vs = some v) : v.resource = r := by
  have hv := List.mem_of_getLast? h
  exact of_decide_eq_true (List.mem_filter.1 hv).2

theorem newest_started (r : Resource) (b : Bool) (wanted : List Resource) :
    newest r (wanted.map fun r => ⟨r, b⟩) = if r ∈ wanted then some ⟨r, b⟩ else none := by
  induction wanted with
  | nil => rfl
  | cons r' rs ih =>
    rw [List.map_cons, ← List.singleton_append, newest_append, ih]
    by_cases hrs : r ∈ rs
    · simp [hrs]
    · by_cases hr : r = r'
      · subst hr
        simp [hrs, newest]
      · simp [hrs, hr, Ne.symm hr, newest]

/-- A watcher takes no more changes once its stream has been replaced or has ended. -/
theorem draining_superseded (r : Resource) (wanted : List Resource) (vs : List Watcher) :
    (newest r (vs.map (Watch.superseded wanted))).elim false Watcher.draining =
      if r ∈ wanted then false else (newest r vs).elim false Watcher.draining := by
  have hsame (v : Watcher) : (Watch.superseded wanted v).resource = v.resource := by
    unfold Watch.superseded
    split <;> rfl
  rw [newest_map hsame]
  cases hv : newest r vs with
  | none => exact (ite_self _).symm
  | some v =>
    rw [Option.map_some, Option.elim_some, Option.elim_some, Watch.superseded,
      resource_of_newest hv]
    by_cases hr : r ∈ wanted
    · simp [hr]
    · simp [hr]

/-! ### Starting -/

section Start

variable {wanted : List Resource}
  {stream : (r : Resource) → Except CollectorError (List (Change r))}

/-- The events that the streams begin with. -/
def eventsOf (stream : (r : Resource) → Except CollectorError (List (Change r))) (r : Resource) :
    Except CollectorError (List Event) :=
  (stream r).map fun cs => cs.map Change.event

theorem openAll_granted (h : granted wanted stream = true) :
    (Watch.openAll (eventsOf stream) wanted).2 =
      .ok (wanted.flatMap fun r => (initial (stream r)).map Change.event) := by
  induction wanted with
  | nil => rfl
  | cons r rs ih =>
    obtain ⟨hr, hrs⟩ := Bool.and_eq_true_iff.1 h
    cases hstream : stream r with
    | error cause => simp [hstream] at hr
    | ok cs =>
      rw [List.flatMap_cons, hstream]
      simp only [Watch.openAll, eventsOf, hstream, Except.map]
      rw [show (Watch.openAll (fun r => _) rs).2 = _ from ih hrs]
      rfl

theorem openAll_refused (h : granted wanted stream = false) :
    ∃ cause, (Watch.openAll (eventsOf stream) wanted).2 = .error cause := by
  induction wanted with
  | nil => cases h
  | cons r rs ih =>
    cases hstream : stream r with
    | error cause => exact ⟨cause, by simp [Watch.openAll, eventsOf, hstream, Except.map]⟩
    | ok cs =>
      have hrs : granted rs stream = false := by simpa [granted, hstream] using h
      obtain ⟨cause, hcause⟩ := ih hrs
      refine ⟨cause, ?_⟩
      simp only [Watch.openAll, eventsOf, hstream, Except.map]
      rw [show (Watch.openAll (fun r => _) rs).2 = _ from hcause]

theorem start_granted (w : Watch) (replaces : Bool) (h : granted wanted stream = true) :
    w.take (.start replaces wanted stream) =
      { w with
        watchers :=
          (if replaces then w.watchers.map (Watch.superseded wanted) else w.watchers) ++
            wanted.map fun r => ⟨r, !w.cancelled⟩
        stores :=
          if w.cancelled then w.stores
          else w.stores.applyAll
            (wanted.flatMap fun r => (initial (stream r)).map Change.event) } := by
  have hopen := openAll_granted h
  show (w.start replaces wanted (eventsOf stream)).2 = _
  unfold Watch.start
  split
  case h_1 asked cause heq =>
    rw [heq] at hopen
    cases hopen
  case h_2 asked events heq =>
    rw [heq] at hopen
    cases hopen
    rfl

theorem start_refused (w : Watch) (replaces : Bool) (h : granted wanted stream = false) :
    w.take (.start replaces wanted stream) = { w with watchers := [] } := by
  obtain ⟨cause, hcause⟩ := openAll_refused h
  show (w.start replaces wanted (eventsOf stream)).2 = _
  unfold Watch.start
  split
  case h_1 asked cause' heq => rfl
  case h_2 asked events heq =>
    rw [heq] at hcause
    cases hcause

/-- A granted start lets the wanted watchers run, unless it comes after shutdown, and no others. -/
theorem drains_start (w : Watch) (replaces : Bool) (h : granted wanted stream = true)
    (r : Resource) :
    (w.take (.start replaces wanted stream)).drains r =
      if r ∈ wanted then !w.cancelled else w.drains r := by
  rw [start_granted w replaces h, drains_eq_newest, newest_append, newest_started]
  by_cases hr : r ∈ wanted
  · rw [if_pos hr, if_pos hr]
    rfl
  · rw [if_neg hr, if_neg hr, Option.none_or, drains_eq_newest]
    cases replaces with
    | false => rfl
    | true => exact (draining_superseded r wanted w.watchers).trans (if_neg hr)

end Start

/-! ### Stopping -/

theorem drains_shutdown (w : Watch) (r : Resource) : (w.take .shutdown).drains r = false := by
  show w.cancel.drains r = false
  rw [drains_eq_newest, Watch.cancel]
  dsimp only
  rw [newest_map (f := fun v => { v with draining := false }) fun _ => rfl]
  cases newest r w.watchers <;> rfl

/-- The end of a stream stops its watcher. -/
theorem drains_streamEnd (w : Watch) (r' r : Resource) :
    (w.take (.streamEnd r')).drains r = if r' = r then false else w.drains r := by
  rw [Watch.take_streamEnd]
  split
  case isTrue =>
    rw [drains_eq_newest, draining_superseded, ← drains_eq_newest]
    simp only [List.mem_singleton, eq_comm]
  case isFalse hdrains =>
    by_cases hr : r' = r
    · subst hr
      rw [if_pos rfl]
      simpa using hdrains
    · rw [if_neg hr]

/-! ### Histories -/

/-- A tap tells whether the watcher of a kind of object runs. -/
structure Tap.Tells (t : Tap) (r : Resource) (w : Watch) : Prop where
  running : w.drains r = t.running
  shut : w.cancelled = t.shut

namespace Tap.Tells

variable {t : Tap} {r : Resource} {w : Watch}

/-- After any incident the next tap tells whether the watcher runs. -/
theorem next (h : t.Tells r w) (i : Incident) : (t.next r i).Tells r (w.take i) := by
  obtain ⟨hrunning, hshut⟩ := h
  cases i with
  | start replaces wanted stream =>
    cases hg : granted wanted stream with
    | false =>
      rw [start_refused w replaces hg, Tap.next, hg]
      exact ⟨rfl, hshut⟩
    | true =>
      have hdrains := drains_start w replaces hg r
      rw [Tap.next, hg, if_pos rfl]
      by_cases hr : r ∈ wanted
      · rw [if_pos hr] at hdrains ⊢
        exact ⟨hdrains.trans (congrArg _ hshut), start_granted w replaces hg ▸ hshut⟩
      · rw [if_neg hr] at hdrains ⊢
        exact ⟨hdrains.trans hrunning, start_granted w replaces hg ▸ hshut⟩
  | stop => exact ⟨rfl, hshut⟩
  | shutdown => exact ⟨drains_shutdown w r, rfl⟩
  | change r' c =>
    rw [Watch.take_change]
    split <;> exact ⟨hrunning, hshut⟩
  | error r' reason => exact ⟨hrunning, hshut⟩
  | streamEnd r' =>
    have hdrains := drains_streamEnd w r' r
    have hsame : (w.take (.streamEnd r')).cancelled = w.cancelled := by
      rw [Watch.take_streamEnd]
      split <;> rfl
    rw [Tap.next]
    by_cases hr : r' = r
    · rw [if_pos hr] at hdrains ⊢
      exact ⟨hdrains, hsame.trans hshut⟩
    · rw [if_neg hr] at hdrains ⊢
      exact ⟨hdrains.trans hrunning, hsame.trans hshut⟩

end Tap.Tells

namespace Incident

/-- An incident has to do with a kind of object. -/
def concerns (r : Resource) : Incident → Bool
  | change r' _ => r' = r
  | error r' _ => r' = r
  | streamEnd r' => r' = r
  | _ => true

/-- A stream brings an error. -/
def isError : Incident → Bool
  | error _ _ => true
  | _ => false

/-- After the incident no watcher of a kind of object runs. -/
def halts (r : Resource) : Incident → Bool
  | start _ wanted stream => !granted wanted stream
  | stop => true
  | shutdown => true
  | streamEnd r' => r' = r
  | _ => false

/-- A watcher of a kind of object is started. -/
def starts (r : Resource) : Incident → Bool
  | start _ wanted stream => granted wanted stream && wanted.contains r
  | _ => false

end Incident

namespace Tap

variable {r : Resource}

end Tap

/-! ### The stores -/

/-- What is known after a history is what its streams have told while their watchers ran. -/
structure Told (history : List Incident) : Prop where
  folds : ∀ r, (Watch.idle.after history).stores.of r =
    (Tap.closed.delivered r history).foldl Change.apply .empty
  /-- It does not matter how the streams of nodes and of pods are interleaved. -/
  interleaves : ∀ history' : List Incident,
    (∀ r, history'.filter (·.concerns r) = history.filter (·.concerns r)) →
      (Watch.idle.after history').stores = (Watch.idle.after history).stores
  /-- Nothing is lost through errors. -/
  errors : (Watch.idle.after (history.filter fun i => !i.isError)).stores =
    (Watch.idle.after history).stores
  /-- Nothing changes after a stop, a refused start or the end of the stream, until a watcher is
  started again. -/
  halted : ∀ (r : Resource) (i : Incident) (later : List Incident), i.halts r = true →
    (∀ j ∈ later, j.starts r = false) →
      (Watch.idle.after (history ++ i :: later)).stores.of r =
        (Watch.idle.after history).stores.of r
  /-- Nothing changes after shutdown. -/
  afterShutdown : ∀ later : List Incident,
    (Watch.idle.after (history ++ .shutdown :: later)).stores = (Watch.idle.after history).stores

/-- A node is added while both kinds of objects are watched. It stays after the stream of nodes has
ended, and what comes then is lost. -/
example (n m : Node) (p : Pod) :
    (Watch.idle.after [.start true [.nodes, .pods] fun _ => .ok [], .change .nodes ⟨.added, n⟩,
      .streamEnd .nodes, .change .nodes ⟨.deleted, n⟩, .change .nodes ⟨.added, m⟩,
      .change .pods ⟨.updated, p⟩]).stores =
    ⟨.ofList [(n.key, n)], .ofList [(p.key, p)]⟩ := rfl

end Kube

/-! ### Collectors -/

open Kube

/-- The watch of a snapshot brings objects of the kind that is watched. -/
theorem Snapshot.watch_brings (files : Snapshot) (r : Resource) :
    ∃ opened : Except CollectorError (List (Change r)),
      opened.map (fun cs => cs.map Change.event) = files.watch r := by
  cases r with
  | nodes =>
    refine ⟨((files.read (within "k8s" "nodes.json") (Term.list? Node.decode?)).mapError
      .watcher).map fun ns => ns.map fun n => ⟨.added, n⟩, ?_⟩
    rw [Snapshot.watch]
    cases files.read (within "k8s" "nodes.json") (Term.list? Node.decode?) with
    | error cause => rfl
    | ok ns => exact congrArg Except.ok (List.map_map ..)
  | pods =>
    refine ⟨((files.read (within "k8s" "pods.json") (Term.list? Pod.decode?)).mapError
      .watcher).map fun ps => ps.map fun p => ⟨.added, p⟩, ?_⟩
    rw [Snapshot.watch]
    cases files.read (within "k8s" "pods.json") (Term.list? Pod.decode?) with
    | error cause => rfl
    | ok ps => exact congrArg Except.ok (List.map_map ..)

/-- Starting a collector is an incident in the history of its cluster. -/
theorem KubeCollector.start_eq_take (k : KubeCollector) (d : Disturbance)
    (files : Option Snapshot) :
    ∃ stream, (k.start d files).2.watch =
      k.watch.take (.start files.isNone (watched k.config) stream) := by
  have hopened (told : Resource → Except CollectorError (List Event))
      (htold : ∀ r, ∃ opened : Except CollectorError (List (Change r)),
        opened.map (fun cs => cs.map Change.event) = told r) (r : Resource) :
      ∃ opened : Except CollectorError (List (Change r)),
        opened.map (fun cs => cs.map Change.event) =
          if d.failing.any (Disturbance.names ["watch", r.text]) then
            .error (.watcher (.refused (r.text ++ " watch forbidden")))
          else told r := by
    split
    · exact ⟨.error _, rfl⟩
    · exact htold r
  cases files with
  | none =>
    obtain ⟨stream, hstream⟩ :=
      Classical.skolem.1 (hopened (fun _ => .ok []) fun _ => ⟨.ok [], rfl⟩)
    refine ⟨stream, ?_⟩
    rw [Watch.take, funext hstream]
    rfl
  | some files =>
    obtain ⟨stream, hstream⟩ := Classical.skolem.1 (hopened files.watch files.watch_brings)
    refine ⟨stream, ?_⟩
    rw [Watch.take, funext hstream]
    rfl

end CloudInventory
