import CloudInventory.Proofs.Schedule.Shutdown
import Mathlib.Algebra.Order.Floor.Div

/-!
When passes are launched. A collector that has started launches its first pass at once and one more
after every period, as long as that is before the signal. Neither its jobs nor the other collectors
have a say in it. The main statement says that all schedules have a result, in the order of the
collectors, and that a collector keeps its timeline exactly when the clock can tell its first tick:
a longer period breaks the schedule off after the first pass.
-/

namespace CloudInventory

namespace Lifecycle

/-- The number of the last pass that transitions have launched. -/
def highest (history : List Transition) : Nat :=
  (history.map fun t => match t.target with | .running n => n | _ => 0).foldl max 0

theorem highest_concat (history : List Transition) (t : Transition) :
    highest (history ++ [t]) =
      max (highest history) (match t.target with | .running n => n | _ => 0) := by
  simp [highest]

namespace Log

/-- Passes are being launched, and the log counts `k` of them. -/
def Counts (log : Log) (k : Nat) : Prop := log.current = .running k ∧ highest log.history = k

variable {log : Log} {k : Nat}

theorem Counts.passes (h : log.Counts k) : log.passes = k := by
  simp [Log.passes, h.1]

/-- A tick launches one pass more. -/
theorem Counts.step_tick (h : log.Counts k) :
    ∃ log', log.step .tick = (.ok .runPass, log') ∧ log'.Counts (k + 1) := by
  refine ⟨_, Log.step_tick h.1, rfl, ?_⟩
  rw [highest_concat, h.2]
  exact Nat.max_eq_right (Nat.le_succ k)

/-- In the end all passes that have been launched are counted. -/
theorem Counts.summary_step_cancel (h : log.Counts k) :
    (log.step .cancel).2.summary = ⟨k, .cancelled⟩ := by
  have hstep : log.step .cancel =
      (.ok .exit, ⟨.cancelled, log.history ++ [⟨log.current, .cancel, .cancelled⟩]⟩) := by
    simp [Log.step, Lifecycle.step, h.1]
  rw [hstep]
  show (⟨highest (log.history ++ [_]), _⟩ : Summary) = _
  rw [highest_concat, h.2]
  simp

end Log

end Lifecycle

namespace Plan

/-! ### Ticks -/

/-- The next `n` passes after the one with number `k`, which was launched at `now`. -/
def nextLaunches (period now k n : Nat) : List Launch :=
  (List.range n).map fun i => ⟨k + (i + 1), now + (i + 1) * period⟩

theorem nextLaunches_succ (period now k n : Nat) :
    nextLaunches period now k (n + 1) =
      ⟨k + 1, now + period⟩ :: nextLaunches period (now + period) (k + 1) n := by
  rw [nextLaunches, List.range_succ_eq_map, List.map_cons, List.map_map, nextLaunches]
  refine congr_arg₂ List.cons (by simp) (List.map_congr_left fun i _ => ?_)
  simp only [Function.comp_apply, Launch.mk.injEq, Nat.succ_mul]
  omega

/-- When the signal comes in the course of the `n`-th period from `now`, just `n` ticks launch a
pass, and all passes are counted. -/
theorem ticks_eq {period signal : Nat} (hperiod : 0 < period) :
    ∀ {n : Nat} (now : Nat) {k : Nat} {log : Lifecycle.Log}, log.Counts k →
      now + n * period < signal → signal ≤ now + (n + 1) * period →
      (ticks period signal now log).1 = nextLaunches period now k n ∧
        (ticks period signal now log).2.summary = ⟨k + n, .cancelled⟩ := by
  intro n
  induction n with
  | zero =>
    intro now k log hlog hbefore hafter
    have hstop : ¬ (0 < period ∧ now + period < signal) := by omega
    rw [ticks, dif_neg hstop]
    exact ⟨rfl, hlog.summary_step_cancel⟩
  | succ n ih =>
    intro now k log hlog hbefore hafter
    obtain ⟨log', hstep, hlog'⟩ := hlog.step_tick
    have hsplit : (n + 1) * period = n * period + period := Nat.succ_mul n period
    have hsplit' : (n + 1 + 1) * period = (n + 1) * period + period := Nat.succ_mul _ _
    have hgo : 0 < period ∧ now + period < signal := ⟨hperiod, by omega⟩
    obtain ⟨hlaunches, hsummary⟩ := ih (now + period) hlog' (by omega) (by omega)
    rw [ticks, dif_pos hgo, hstep, nextLaunches_succ, ← hlaunches]
    refine ⟨?_, hsummary.trans ?_⟩
    · show (⟨log'.passes, now + period⟩ : Launch) :: _ = _
      rw [hlog'.passes]
    · rw [Nat.add_assoc, Nat.add_comm 1 n]

/-! ### The timeline -/

/-- How many passes fit in before the signal. -/
def fitting (p : Plan) (c : Nat) : Nat := (c - p.startTime) ⌈/⌉ p.period

/-- One pass when the start is over, and one more after every period until the signal. -/
def timeline (p : Plan) (c : Nat) : List Launch :=
  (List.range (p.fitting c)).map fun k => ⟨k + 1, p.startTime + k * p.period⟩

variable {p : Plan} {clock : Clock} {c : Nat}

/-- Of all passes that a timeline could have, just those before the signal fit in. -/
theorem lt_fitting_iff (hperiod : 0 < p.period) (hstart : p.startTime < c) (k : Nat) :
    k < p.fitting c ↔ p.startTime + k * p.period < c := by
  rw [fitting, ← Nat.not_le, ceilDiv_le_iff_le_mul hperiod, Nat.mul_comm]
  omega

theorem course_timeline (hperiod : 0 < p.period) (hstart : p.startOutcome = .ok)
    (hc : p.startTime < c) (hclock : Clock.tells (clock.reading p.startTime) p.period = true) :
    (p.course clock (.at c)).launches = p.timeline c ∧
      (p.course clock (.at c)).result = .ok ⟨p.fitting c, .cancelled⟩ := by
  obtain ⟨n, hn⟩ : ∃ n, p.fitting c = n + 1 :=
    Nat.exists_eq_succ_of_ne_zero
      (Nat.pos_iff_ne_zero.1 ((lt_fitting_iff hperiod hc 0).2 (by omega)))
  have hbefore := (lt_fitting_iff hperiod hc n).1 (by omega)
  have hafter := (lt_fitting_iff hperiod hc (n + 1)).not.1 (by omega)
  have hlog : startedLog.Counts 1 := ⟨rfl, rfl⟩
  obtain ⟨hticks, hsummary⟩ := ticks_eq hperiod _ hlog hbefore (Nat.le_of_not_lt hafter)
  obtain ⟨hlaunches, hresult⟩ := course_ok hperiod hstart hclock (c := c)
  constructor
  · rw [hlaunches, hticks, timeline, hn, List.range_succ_eq_map, List.map_cons, List.map_map,
      nextLaunches]
    refine congr_arg₂ List.cons (by simp) (List.map_congr_left fun i _ => ?_)
    exact Launch.mk.injEq _ _ _ _ ▸ ⟨Nat.add_comm _ _, rfl⟩
  · rw [hresult, hsummary, hn, Nat.add_comm]

/-! ### What can be seen of it -/

/-- The passes that are launched, as far as can be seen from what happens. -/
def launchesIn (es : List (Nat × Entry)) : List Launch :=
  es.filterMap fun e => match e.2 with
    | .happening (.launched pass) => some ⟨pass, e.1⟩
    | _ => none

theorem launchesIn_append (es es' : List (Nat × Entry)) :
    launchesIn (es ++ es') = launchesIn es ++ launchesIn es' :=
  List.filterMap_append

/-- A job launches no passes, whatever it does. -/
theorem launchesIn_job (j : TimedJob) (signal : Option Nat) (pass job now : Nat) :
    launchesIn (j.entries signal pass job now) = [] := by
  unfold TimedJob.entries
  dsimp only
  split <;> rfl

theorem launchesIn_entriesOf (signal : Option Nat) (pass now : Nat) (jobs : List TimedJob) :
    launchesIn (TimedJob.entriesOf signal pass now jobs) = [] := by
  refine List.filterMap_eq_nil_iff.2 fun e he => ?_
  obtain ⟨es, hes, he⟩ := List.mem_flatten.1 he
  obtain ⟨⟨j, i⟩, -, rfl⟩ := List.mem_map.1 hes
  exact List.filterMap_eq_nil_iff.1 (launchesIn_job j signal pass i now) e he

theorem launchesIn_course (p : Plan) (clock : Clock) (signal : Signal) :
    launchesIn (p.course clock signal).entries = [] := by
  unfold course
  split
  · rfl
  · split
    · rfl
    · dsimp only
      split
      · rfl
      · rfl
      · split <;> rfl

/-- What can be seen are the launches of the course. -/
theorem launchesIn_entries (p : Plan) (clock : Clock) (signal : Signal) :
    launchesIn (p.entries clock signal) = (p.course clock signal).launches := by
  rw [entries, launchesIn_append, launchesIn_course, List.nil_append]
  induction (p.course clock signal).launches with
  | nil => rfl
  | cons l ls ih =>
    rw [List.flatMap_cons, List.cons_append, launchesIn, List.filterMap_cons]
    show l :: launchesIn (_ ++ _) = _
    rw [launchesIn_append, launchesIn_entriesOf, List.nil_append, ih]

/-- A collector keeps its timeline, and its schedule ends with this result. -/
structure OnTime (p : Plan) (clock : Clock) (c : Nat)
    (result : Option (Provider × Except CollectorError Summary)) : Prop where
  launches : launchesIn (p.entries clock (.at c)) = p.timeline c
  /-- The timeline has all the passes before the signal, and no others. -/
  fits : ∀ k, k < p.fitting c ↔ p.startTime + k * p.period < c
  result : result = some (p.provider, .ok ⟨p.fitting c, .cancelled⟩)

/-- CORRECT: there is one result for each collector, in their order. And each collector that starts
before the signal keeps its timeline, whatever its jobs and the other collectors do, exactly when
the clock can tell its first tick. -/
theorem onTime_iff (plans : List Plan) (clock : Clock) (c : Nat) :
    (runAll plans clock (.at c)).map Prod.fst = plans.map Plan.provider ∧
      ∀ (i : Nat) (p : Plan), plans[i]? = some p → 0 < p.period → p.startOutcome = .ok →
        p.startTime < c → (∀ k, c ≠ p.startTime + k * p.period) →
        (p.OnTime clock c (runAll plans clock (.at c))[i]? ↔
          Clock.tells (clock.reading p.startTime) p.period = true) := by
  refine ⟨by simp [runAll], fun i p hp hperiod hstart hc _ => ?_⟩
  have hresult : (runAll plans clock (.at c))[i]? =
      some (p.provider, (p.course clock (.at c)).result) := by
    rw [runAll, List.getElem?_map, hp, Option.map_some]
  rw [hresult]
  cases hclock : Clock.tells (clock.reading p.startTime) p.period with
  | true =>
    obtain ⟨hlaunches, hok⟩ := course_timeline hperiod hstart hc hclock
    refine iff_of_true ⟨?_, lt_fitting_iff hperiod hc, by rw [hok]⟩ rfl
    rw [launchesIn_entries, hlaunches]
  | false =>
    obtain ⟨-, hbroken⟩ := course_untold hperiod hstart hclock (c := c)
    refine iff_of_false (fun h => ?_) nofun
    have hsame := h.result
    rw [hbroken] at hsame
    simp at hsame

/-! ### A period that the clock cannot tell -/

/-- A collector with a period of 2^63 seconds. -/
def farPeriod : Plan := ⟨.azure, 9223372036854775808000, 0, .ok, fun _ => []⟩

/-- A collector that takes a while to start, and whose jobs outlast its period and panic. -/
def shortPeriod : Plan := ⟨.aws, 300, 50, .ok, fun _ => [⟨[.wait 1000 false], .panic⟩]⟩

/-- Side by side, one of them keeps its timeline and the other does not. -/
theorem not_onTime_farPeriod :
    (0 < farPeriod.period ∧ farPeriod.startTime < 1000 ∧
        ∀ k, 1000 ≠ farPeriod.startTime + k * farPeriod.period) ∧
      ¬ farPeriod.OnTime .hourOld 1000 (runAll [farPeriod, shortPeriod] .hourOld (.at 1000))[0]? ∧
      shortPeriod.OnTime .hourOld 1000
        (runAll [farPeriod, shortPeriod] .hourOld (.at 1000))[1]? := by
  have hfar : ∀ k, 1000 ≠ farPeriod.startTime + k * farPeriod.period := by
    intro k
    show 1000 ≠ 0 + k * 9223372036854775808000
    omega
  have hshort : ∀ k, 1000 ≠ shortPeriod.startTime + k * shortPeriod.period := by
    intro k
    show 1000 ≠ 50 + k * 300
    omega
  obtain ⟨-, htimes⟩ := onTime_iff [farPeriod, shortPeriod] .hourOld 1000
  refine ⟨⟨by decide, by decide, hfar⟩, fun h => ?_, ?_⟩
  · have hclock := (htimes 0 farPeriod rfl (by decide) rfl (by decide) hfar).1 h
    exact absurd hclock (by decide)
  · exact (htimes 1 shortPeriod rfl (by decide) rfl (by decide) hshort).2 (by decide)

end Plan

end CloudInventory
