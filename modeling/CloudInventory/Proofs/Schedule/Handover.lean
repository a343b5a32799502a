import CloudInventory.Proofs.Schedule.Shutdown

/-!
Which records get out before the program ends. A record belongs to the listing that its job was
answered last; a job whose listing has been answered goes on publishing after the signal, however
long that takes. But no schedule waits for its jobs, and the program ends with the schedules. The
main statement says that no job drops a record of a listing that was answered in time, and that
such a record is lost all the same exactly when it is due after the end of the schedules, which
comes with the signal or with the last start, whatever the jobs are doing.
-/

namespace CloudInventory

/-- A record that a job is to publish: when the listing it belongs to is answered, and when it is
due, as long as no signal comes. -/
structure Handover where
  listed : Nat
  due : Nat
  record : Record

namespace Handover

/-- The publishing of the record. -/
def event (h : Handover) : Nat × Record := (h.due, h.record)

end Handover

/-! ### One job -/

namespace TimedJob

/-- What is to be published from `now` on, the last listing having been answered at `listed`. A
guarded wait is the wait for a listing. -/
def handoversFrom (listed : Nat) : List Phase → Nat → List Handover
  | [], _ => []
  | .wait duration true :: rest, now => handoversFrom (now + duration) rest (now + duration)
  | .wait duration false :: rest, now => handoversFrom listed rest (now + duration)
  | .publish r :: rest, now => ⟨listed, now, r⟩ :: handoversFrom listed rest now

/-- What a job that is launched at `now` is to publish. What needs no listing counts as listed at
once. -/
def handovers (j : TimedJob) (now : Nat) : List Handover := handoversFrom now j.phases now

/-- The records of the listings that are answered before a signal. -/
def resolved (j : TimedJob) (signal now : Nat) : List Handover :=
  (j.handovers now).filter fun h => h.listed < signal

theorem le_listed : ∀ (phases : List Phase) {listed now : Nat}, listed ≤ now →
    ∀ h ∈ handoversFrom listed phases now, listed ≤ h.listed
  | [], _, _, _, h, hh => absurd hh List.not_mem_nil
  | .wait duration true :: rest, listed, now, hle, h, hh =>
    Nat.le_trans (by omega) (le_listed rest (Nat.le_refl (now + duration)) h hh)
  | .wait duration false :: rest, listed, now, hle, h, hh =>
    le_listed rest (Nat.le_trans hle (Nat.le_add_right now duration)) h hh
  | .publish r :: rest, listed, now, hle, h, hh => by
    rcases List.mem_cons.1 hh with rfl | hh
    · exact Nat.le_refl _
    · exact le_listed rest hle h hh

theorem resolvedFrom_sublist (signal : Nat) (outcome : Outcome) : ∀ (phases : List Phase)
    {listed now : Nat}, listed ≤ now →
    (((handoversFrom listed phases now).filter fun h => h.listed < signal).map
      Handover.event).Sublist (runFrom (some signal) outcome phases now).published
  | [], _, _, _ => List.Sublist.refl _
  | .wait duration true :: rest, listed, now, hle => by
    rw [handoversFrom, runFrom, Bool.true_and]
    split
    case isTrue hgiven =>
      -- the listing is not answered in time, and neither are those after it
      have hlate : signal ≤ now + duration := of_decide_eq_true hgiven
      have hnone : (handoversFrom (now + duration) rest (now + duration)).filter
          (fun h => h.listed < signal) = [] :=
        List.filter_eq_nil_iff.2 fun h hh hearly => by
          have hlisted := le_listed rest (Nat.le_refl (now + duration)) h hh
          have hearly := of_decide_eq_true hearly
          omega
      rw [hnone]
      exact List.nil_sublist _
    case isFalse => exact resolvedFrom_sublist signal outcome rest (Nat.le_refl _)
  | .wait duration false :: rest, listed, now, hle =>
    resolvedFrom_sublist signal outcome rest (Nat.le_trans hle (Nat.le_add_right now duration))
  | .publish r :: rest, listed, now, hle => by
    have hrest := resolvedFrom_sublist signal outcome rest hle
    rw [handoversFrom, runFrom, List.filter_cons]
    split
    · exact hrest.cons_cons _
    · exact hrest.cons _

/-- A job publishes all records of the listings that are answered before the signal, in their
order and when they are due. -/
theorem resolved_sublist (j : TimedJob) (signal now : Nat) :
    ((j.resolved signal now).map Handover.event).Sublist (j.run (some signal) now).published :=
  resolvedFrom_sublist signal j.outcome j.phases (Nat.le_refl now)

end TimedJob

/-! ### Lists of lists -/

/-- Parts that go over into parts of others do so together. -/
theorem sublist_flatMap {α β γ : Type} {f : β → γ} {g : α → List β} {k : α → List γ} :
    ∀ {as : List α}, (∀ a ∈ as, ((g a).map f).Sublist (k a)) →
      ((as.flatMap g).map f).Sublist (as.flatMap k)
  | [], _ => List.Sublist.refl _
  | a :: as, h => by
    rw [List.flatMap_cons, List.flatMap_cons, List.map_append]
    exact (h a List.mem_cons_self).append
      (sublist_flatMap fun b hb => h b (List.mem_cons_of_mem _ hb))

/-! ### All collectors -/

namespace Plan

/-- The records of the listings of a collector that are answered before the signal. -/
def resolved (p : Plan) (clock : Clock) (signal : Signal) : List Handover :=
  (p.course clock signal).launches.flatMap fun l =>
    (p.jobs l.pass).flatMap fun j => j.resolved signal.time l.time

theorem resolved_sublist (p : Plan) (clock : Clock) (signal : Signal) :
    ((p.resolved clock signal).map Handover.event).Sublist (p.published clock signal) :=
  sublist_flatMap fun l _ => sublist_flatMap fun j _ => j.resolved_sublist signal.time l.time

/-- A schedule ends with the signal or with its start. -/
theorem course_ended_le (p : Plan) (clock : Clock) (signal : Signal) :
    (p.course clock signal).ended ≤ max signal.time p.startTime := by
  unfold course
  split
  · exact Nat.zero_le _
  · split
    · exact Nat.zero_le _
    · dsimp only [Signal.time]
      split
      · exact Nat.le_max_right _ _
      · exact Nat.le_max_right _ _
      · split
        · exact Nat.le_refl _
        · exact Nat.le_max_right _ _

end Plan

/-- The records of the listings of all collectors that are answered before the signal. -/
def resolvedOf (plans : List Plan) (clock : Clock) (signal : Signal) : List Handover :=
  plans.flatMap fun p => p.resolved clock signal

/-- By the end of all schedules every record of a listing that was answered before the signal has
been published. -/
def KeepsResolved (plans : List Plan) (clock : Clock) (signal : Signal) : Prop :=
  ((resolvedOf plans clock signal).map Handover.event).Sublist (publishedByEnd plans clock signal)

theorem resolvedOf_sublist (plans : List Plan) (clock : Clock) (signal : Signal) :
    ((resolvedOf plans clock signal).map Handover.event).Sublist
      (plans.flatMap fun p => p.published clock signal) :=
  sublist_flatMap fun p _ => p.resolved_sublist clock signal

theorem foldl_max_le {bound : Nat} : ∀ (ends : List Nat) {start : Nat}, start ≤ bound →
    (∀ e ∈ ends, e ≤ bound) → ends.foldl max start ≤ bound
  | [], _, hstart, _ => hstart
  | _ :: ends, _, hstart, hends =>
    foldl_max_le ends (Nat.max_le.2 ⟨hstart, hends _ List.mem_cons_self⟩) fun x hx =>
      hends x (List.mem_cons_of_mem _ hx)

/-- The schedules end with the signal or with the last start. -/
theorem allEnded_le {plans : List Plan} {clock : Clock} {signal : Signal} {bound : Nat}
    (h : ∀ p ∈ plans, max signal.time p.startTime ≤ bound) : allEnded plans clock signal ≤ bound :=
  foldl_max_le _ (Nat.zero_le _) (List.forall_mem_map.2 fun p hp =>
    Nat.le_trans (p.course_ended_le clock signal) (h p hp))

/-- CORRECT: no job drops a record of a listing that was answered before the signal. All these
records are published by the end of the schedules exactly when none of them is due later. The jobs
do not move that end, and it comes no later than the signal and the last start. -/
theorem keepsResolved_iff (plans : List Plan) (clock : Clock) (signal : Signal) :
    ((resolvedOf plans clock signal).map Handover.event).Sublist
        (plans.flatMap fun p => p.published clock signal) ∧
      (KeepsResolved plans clock signal ↔
        ∀ h ∈ resolvedOf plans clock signal, h.due ≤ allEnded plans clock signal) ∧
      (∀ jobs : Plan → Nat → List TimedJob,
        allEnded (plans.map fun p => { p with jobs := jobs p }) clock signal =
          allEnded plans clock signal) ∧
      ∀ bound, (∀ p ∈ plans, max signal.time p.startTime ≤ bound) →
        allEnded plans clock signal ≤ bound := by
  refine ⟨resolvedOf_sublist plans clock signal, ⟨fun hkeeps h hh => ?_, fun hdue => ?_⟩,
    fun jobs => ?_, fun bound => allEnded_le⟩
  · have hmem := hkeeps.subset (List.mem_map_of_mem hh)
    exact of_decide_eq_true (List.mem_filter.1 hmem).2
  · have hall := (resolvedOf_sublist plans clock signal).filter
      fun e => e.1 ≤ allEnded plans clock signal
    have hkept : ∀ e ∈ (resolvedOf plans clock signal).map Handover.event,
        decide (e.1 ≤ allEnded plans clock signal) = true :=
      List.forall_mem_map.2 fun h hh => decide_eq_true (hdue h hh)
    rwa [List.filter_eq_self.2 hkept] at hall
  · rw [allEnded, allEnded, List.map_map]
    rfl

/-- A collector whose listing takes 10 ms, and whose records take 100 ms each to publish. -/
def slowSink : Plan :=
  ⟨.aws, 5000, 0, .ok, fun _ =>
    [⟨[.wait 10 true, .wait 100 false, .publish (.compose .epoch []), .wait 100 false,
      .publish (.compose .epoch [])], .ok 2⟩]⟩

/-- With a signal at 150 ms the second record is lost, though its listing was answered long
before. -/
theorem not_keepsResolved_slowSink :
    resolvedOf [slowSink] .hourOld (.at 150) =
        [⟨10, 110, .compose .epoch []⟩, ⟨10, 210, .compose .epoch []⟩] ∧
      ¬ KeepsResolved [slowSink] .hourOld (.at 150) := by
  have hlaunches : (slowSink.course .hourOld (.at 150)).launches = [⟨1, 0⟩] := by
    rw [(Plan.course_ok (by decide) rfl (by decide)).1, Plan.ticks, dif_neg (by decide)]
    rfl
  have hall : resolvedOf [slowSink] .hourOld (.at 150) =
      [⟨10, 110, .compose .epoch []⟩, ⟨10, 210, .compose .epoch []⟩] := by
    rw [resolvedOf, List.flatMap_singleton, Plan.resolved, hlaunches]
    rfl
  refine ⟨hall, fun hkeeps => ?_⟩
  obtain ⟨-, hiff, -, hbound⟩ := keepsResolved_iff [slowSink] .hourOld (.at 150)
  have hdue : 210 ≤ allEnded [slowSink] .hourOld (.at 150) :=
    hiff.1 hkeeps ⟨10, 210, .compose .epoch []⟩ (by rw [hall]; simp)
  have hended : allEnded [slowSink] .hourOld (.at 150) ≤ 150 := hbound 150 (by decide)
  omega

end CloudInventory
