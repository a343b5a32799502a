import CloudInventory.Schedule
import Mathlib.Data.List.Basic

/-!
What shutdown does to a schedule. A schedule honours the signal when it launches no pass after it
and then ends cancelled, or with the error of its start. The signal is looked at before the start
and at every tick, but not between the start and the first pass: a signal that comes while the
collector is starting does not keep the first pass from being launched. The main statement says
that this is the only way to miss the signal, apart from the two ways in which a schedule breaks
off (a start that panics, and a period that the clock cannot tell).
-/

namespace CloudInventory

namespace Lifecycle.Log

variable {log : Log} {k : Nat}

theorem step_tick (h : log.current = .running k) :
    log.step .tick = (.ok .runPass,
      ⟨.running (k + 1), log.history ++ [⟨.running k, .tick, .running (k + 1)⟩]⟩) := by
  simp [Log.step, Lifecycle.step, h]

theorem current_step_cancel (h : log.current = .running k) :
    (log.step .cancel).2.current = .cancelled := by
  simp [Log.step, Lifecycle.step, h]

end Lifecycle.Log

namespace Plan

/-- The log of a collector that has started. -/
def startedLog : Lifecycle.Log := ((Lifecycle.Log.starting .idle).step .start).2

/-! ### Ticks -/

/-- Ticks launch passes only after the time they start from and before the signal. -/
theorem ticks_time (period signal now : Nat) (log : Lifecycle.Log) :
    ∀ l ∈ (ticks period signal now log).1, now < l.time ∧ l.time < signal := by
  fun_induction ticks period signal now log with
  | case1 now log hgo log' hstep launches final hrest ih =>
    rintro l hl
    rcases List.mem_cons.1 hl with rfl | hl
    · exact ⟨Nat.lt_add_of_pos_right hgo.1, hgo.2⟩
    · rw [hrest] at ih
      exact ⟨Nat.lt_trans (Nat.lt_add_of_pos_right hgo.1) (ih l hl).1, (ih l hl).2⟩
  | case2 => simp
  | case3 => simp

/-- Ticks go on until the schedule is cancelled. -/
theorem ticks_current (period signal now : Nat) (log : Lifecycle.Log) :
    ∀ k, log.current = .running k → (ticks period signal now log).2.current = .cancelled := by
  fun_induction ticks period signal now log with
  | case1 now log hgo log' hstep launches final hrest ih =>
    intro k hk
    rw [Lifecycle.Log.step_tick hk] at hstep
    rw [hrest] at ih
    exact ih (k + 1) (by rw [← (Prod.mk.inj hstep).2])
  | case2 now log hgo outcome log' hother hstep =>
    intro k hk
    rw [Lifecycle.Log.step_tick hk] at hstep
    exact absurd (Prod.mk.inj hstep).1.symm hother
  | case3 now log hstop => exact fun k hk => Lifecycle.Log.current_step_cancel hk

/-! ### The courses a schedule can take -/

section Courses

variable {p : Plan} {clock : Clock} {c : Nat} (hperiod : 0 < p.period)
include hperiod

theorem course_before :
    (p.course clock .before).launches = [] ∧
      (p.course clock .before).result = .ok ⟨0, .cancelled⟩ := by
  rw [course, if_neg (Nat.ne_of_gt hperiod)]
  exact ⟨rfl, rfl⟩

theorem course_panic (hstart : p.startOutcome = .panic) :
    (p.course clock (.at c)).launches = [] ∧
      (p.course clock (.at c)).result = .error p.breakdown := by
  simp [course, Nat.ne_of_gt hperiod, hstart]

theorem course_error {cause : CollectorError} (hstart : p.startOutcome = .error cause) :
    (p.course clock (.at c)).launches = [] ∧ (p.course clock (.at c)).result = .error cause := by
  simp [course, Nat.ne_of_gt hperiod, hstart]

/-- One pass at once, then the ticks. -/
theorem course_ok (hstart : p.startOutcome = .ok)
    (hclock : Clock.tells (clock.reading p.startTime) p.period = true) :
    (p.course clock (.at c)).launches =
        ⟨1, p.startTime⟩ :: (ticks p.period c p.startTime startedLog).1 ∧
      (p.course clock (.at c)).result =
        .ok (ticks p.period c p.startTime startedLog).2.summary := by
  simp [course, Nat.ne_of_gt hperiod, hstart, hclock, startedLog]

/-- One pass, and then nobody can tell when the next one is due. -/
theorem course_untold (hstart : p.startOutcome = .ok)
    (hclock : Clock.tells (clock.reading p.startTime) p.period = false) :
    (p.course clock (.at c)).launches = [⟨1, p.startTime⟩] ∧
      (p.course clock (.at c)).result = .error p.breakdown := by
  simp [course, Nat.ne_of_gt hperiod, hstart, hclock]

end Courses

/-! ### Honouring the signal -/

/-- The schedule ends cancelled, or with the error of the start. -/
def EndsProperly (p : Plan) (clock : Clock) (signal : Signal) : Prop :=
  (∃ passes, (p.course clock signal).result = .ok ⟨passes, .cancelled⟩) ∨
    ∃ cause, p.startOutcome = .error cause ∧ (p.course clock signal).result = .error cause

/-- No pass is launched after the signal, and the schedule ends properly. -/
def HonoursShutdown (p : Plan) (clock : Clock) (signal : Signal) : Prop :=
  (∀ l ∈ (p.course clock signal).launches, l.time ≤ signal.time) ∧ p.EndsProperly clock signal

/-- The start succeeds no later than the signal, and the clock can tell the first tick. -/
def StartsInTime (p : Plan) (clock : Clock) (signal : Signal) : Prop :=
  p.startOutcome = .ok ∧ p.startTime ≤ signal.time ∧
    Clock.tells (clock.reading p.startTime) p.period = true

/-- The ways to honour the signal: not to have begun, to fail to start, or to start in time. -/
def InTime (p : Plan) (clock : Clock) (signal : Signal) : Prop :=
  signal = .before ∨ (∃ cause, p.startOutcome = .error cause) ∨ p.StartsInTime clock signal

theorem not_endsProperly {p : Plan} {clock : Clock} {signal : Signal} {fault : CollectorError}
    (hresult : (p.course clock signal).result = .error fault)
    (hstart : ∀ cause, p.startOutcome ≠ .error cause) : ¬ p.EndsProperly clock signal := by
  rintro (⟨passes, hok⟩ | ⟨cause, herror, -⟩)
  · rw [hresult] at hok; cases hok
  · exact hstart cause herror

theorem late_launch_iff {p : Plan} {clock : Clock} {c : Nat} (hperiod : 0 < p.period)
    (hstart : p.startOutcome = .ok)
    (hclock : Clock.tells (clock.reading p.startTime) p.period = true) (l : Launch) :
    (l ∈ (p.course clock (.at c)).launches ∧ c < l.time) ↔
      l = ⟨1, p.startTime⟩ ∧ c < p.startTime := by
  rw [(course_ok hperiod hstart hclock).1, List.mem_cons]
  constructor
  · rintro ⟨rfl | hl, hlate⟩
    · exact ⟨rfl, hlate⟩
    · have := (ticks_time _ _ _ _ l hl).2; omega
  · rintro ⟨rfl, hlate⟩
    exact ⟨.inl rfl, hlate⟩

theorem honours_of_ok {p : Plan} {clock : Clock} {c : Nat} (hperiod : 0 < p.period)
    (hstart : p.startOutcome = .ok)
    (hclock : Clock.tells (clock.reading p.startTime) p.period = true) :
    p.HonoursShutdown clock (.at c) ↔ p.startTime ≤ c := by
  have hends : p.EndsProperly clock (.at c) := by
    refine .inl ⟨(ticks p.period c p.startTime startedLog).2.passes, ?_⟩
    rw [(course_ok hperiod hstart hclock).2, Lifecycle.Log.summary,
      ticks_current _ _ _ _ 1 rfl]
  constructor
  · intro h
    have hfirst : (⟨1, p.startTime⟩ : Launch) ∈ (p.course clock (.at c)).launches := by
      rw [(course_ok hperiod hstart hclock).1]; exact List.mem_cons_self
    exact h.1 _ hfirst
  · refine fun hle => ⟨fun l hl => Nat.le_of_not_lt fun hlate => ?_, hends⟩
    have := ((late_launch_iff hperiod hstart hclock l).1 ⟨hl, hlate⟩).2
    omega

/-- CORRECT: the signal is honoured exactly when the schedule has not begun, its start fails, or
its start is over in time; and a pass that is launched after the signal is the first one. -/
theorem honoursShutdown_iff (p : Plan) (clock : Clock) (signal : Signal) (hperiod : 0 < p.period) :
    (p.HonoursShutdown clock signal ↔ p.InTime clock signal) ∧
      ∀ l ∈ (p.course clock signal).launches, signal.time < l.time → l = ⟨1, p.startTime⟩ := by
  cases signal with
  | before =>
    obtain ⟨hlaunches, hresult⟩ := course_before hperiod
    refine ⟨iff_of_true ⟨?_, .inl ⟨0, hresult⟩⟩ (.inl rfl), ?_⟩ <;> simp [hlaunches]
  | «at» c =>
    cases hstart : p.startOutcome with
    | panic =>
      obtain ⟨hlaunches, hresult⟩ := course_panic (c := c) hperiod hstart
      refine ⟨iff_of_false (fun h => not_endsProperly hresult (by simp [hstart]) h.2) ?_,
        by simp [hlaunches]⟩
      simp [InTime, StartsInTime, hstart]
    | error cause =>
      obtain ⟨hlaunches, hresult⟩ := course_error (c := c) hperiod hstart
      refine ⟨iff_of_true ⟨?_, .inr ⟨cause, hstart, hresult⟩⟩ (.inr (.inl ⟨cause, hstart⟩)), ?_⟩ <;>
        simp [hlaunches]
    | ok =>
      cases hclock : Clock.tells (clock.reading p.startTime) p.period with
      | true =>
        refine ⟨(honours_of_ok hperiod hstart hclock).trans ?_,
          fun l hl hlate => ((late_launch_iff hperiod hstart hclock l).1 ⟨hl, hlate⟩).1⟩
        simp [InTime, StartsInTime, hstart, hclock, Signal.time]
      | false =>
        obtain ⟨hlaunches, hresult⟩ := course_untold (c := c) hperiod hstart hclock
        refine ⟨iff_of_false (fun h => not_endsProperly hresult (by simp [hstart]) h.2) ?_, ?_⟩
        · simp [InTime, StartsInTime, hstart, hclock]
        · simp [hlaunches]

/-- A collector that takes a while to start. -/
def lateStart : Plan := ⟨.azure, 700, 250, .ok, fun _ => []⟩

/-- A signal during the start comes too late for the first pass. -/
theorem not_honoursShutdown_lateStart :
    0 < lateStart.period ∧ ¬ lateStart.HonoursShutdown .hourOld (.at 17) := by
  have hperiod : 0 < lateStart.period := by decide
  refine ⟨hperiod, fun h => ?_⟩
  have hways := (honoursShutdown_iff lateStart .hourOld (.at 17) hperiod).1.1 h
  rcases hways with h | ⟨cause, h⟩ | ⟨-, h, -⟩
  · cases h
  · cases h
  · exact absurd h (by decide)

end Plan

end CloudInventory
