import CloudInventory.Lifecycle
import Mathlib.Data.List.Induction

/-!
What a lifecycle's log tells of the inputs it was fed. A log takes its inputs one by one, and of
each it keeps the transition or, when the input leads nowhere, nothing at all. So its history is a
chain of transitions from where the log began to where it is, one for each accepted input, and the
count of a running schedule is the number of passes that were asked for since the last accepted
start. The log of a schedule that is cancelled never changes again.
-/

namespace CloudInventory.Lifecycle

/-! ### Chains of transitions -/

/-- The lifecycle allows the transition. -/
def Transition.Valid (t : Transition) : Prop :=
  ∃ action, step t.source t.input = .ok (t.target, action)

/-- Valid transitions that lead from one state to another, each from where the last one ended. -/
def Chain (first : Lifecycle) : List Transition → Lifecycle → Prop
  | [], last => first = last
  | t :: rest, last => t.source = first ∧ t.Valid ∧ Chain t.target rest last

theorem Chain.snoc {last : Lifecycle} {t : Transition} (hsource : t.source = last)
    (hvalid : t.Valid) :
    ∀ {ts : List Transition} {first : Lifecycle}, Chain first ts last →
      Chain first (ts ++ [t]) t.target
  | [], _, h => ⟨hsource.trans h.symm, hvalid, rfl⟩
  | _ :: _, _, ⟨hs, hv, hrest⟩ => ⟨hs, hv, Chain.snoc hsource hvalid hrest⟩

/-! ### One input -/

theorem step_of_accepts {state : Lifecycle} {input : Input} (h : state.accepts input = true) :
    ∃ target action, state.step input = .ok (target, action) := by
  unfold accepts at h
  cases hstep : state.step input with
  | ok result => exact ⟨result.1, result.2, rfl⟩
  | error fault => rw [hstep] at h; cases h

theorem step_of_not_accepts {state : Lifecycle} {input : Input}
    (h : state.accepts input = false) :
    state.step input = .error (.invalidTransition state input) := by
  cases state <;> cases input <;> first | rfl | cases h

namespace Log

variable {l : Log} {input : Input}

theorem step_of_accepts (h : l.current.accepts input = true) :
    ∃ target action, l.current.step input = .ok (target, action) ∧
      l.step input = (.ok action, ⟨target, l.history ++ [⟨l.current, input, target⟩]⟩) := by
  obtain ⟨target, action, hstep⟩ := Lifecycle.step_of_accepts h
  exact ⟨target, action, hstep, by rw [Log.step, hstep]⟩

theorem step_of_not_accepts (h : l.current.accepts input = false) :
    l.step input = (.error (.invalidTransition l.current input), l) := by
  rw [Log.step, Lifecycle.step_of_not_accepts h]

/-- A log answers an input with an action exactly when its state accepts it. -/
theorem toBool_step : (l.step input).1.toBool = l.current.accepts input := by
  cases h : l.current.accepts input with
  | true => obtain ⟨_, _, _, hstep⟩ := step_of_accepts h; rw [hstep]; rfl
  | false => rw [step_of_not_accepts h]; rfl

/-! ### Many inputs -/

/-- The log after a list of inputs. -/
def after (l : Log) (inputs : List Input) : Log :=
  inputs.foldl (fun l input => (l.step input).2) l

/-- Each input of a list with its answer. -/
def answers (l : Log) : List Input → List (Input × Except Fault Action)
  | [] => []
  | input :: rest => (input, (l.step input).1) :: answers (l.step input).2 rest

/-- The inputs of a list that are answered with an action. -/
def accepted (l : Log) (inputs : List Input) : List Input :=
  ((l.answers inputs).filter fun a => a.2.toBool).map Prod.fst

/-- How often the answers to a list of inputs ask for a pass. -/
def passesAsked (l : Log) (inputs : List Input) : Nat :=
  (l.answers inputs).countP fun a => a.2 matches .ok .runPass

theorem after_append (l : Log) (inputs more : List Input) :
    l.after (inputs ++ more) = (l.after inputs).after more := List.foldl_append

theorem after_snoc (l : Log) (inputs : List Input) (input : Input) :
    l.after (inputs ++ [input]) = ((l.after inputs).step input).2 := after_append l inputs [input]

theorem answers_append (l : Log) (inputs more : List Input) :
    l.answers (inputs ++ more) = l.answers inputs ++ (l.after inputs).answers more := by
  induction inputs generalizing l with
  | nil => rfl
  | cons input rest ih => exact congrArg (_ :: ·) (ih _)

theorem accepted_snoc (l : Log) (inputs : List Input) (input : Input) :
    l.accepted (inputs ++ [input]) =
      l.accepted inputs ++ if (l.after inputs).current.accepts input then [input] else [] := by
  rw [accepted, answers_append, List.filter_append, List.map_append, ← accepted, ← toBool_step]
  congr 1
  cases h : ((l.after inputs).step input).1.toBool <;> simp [answers, h]

theorem passesAsked_snoc (l : Log) (inputs : List Input) (input : Input) :
    l.passesAsked (inputs ++ [input]) =
      l.passesAsked inputs + (l.after inputs).passesAsked [input] := by
  rw [passesAsked, answers_append, List.countP_append, ← passesAsked, ← passesAsked]

/-! ### The history -/

/-- The history leads from the first state to the current one, and tells the inputs that were
accepted. -/
structure Tells (first : Lifecycle) (l : Log) (taken : List Input) : Prop where
  chain : Chain first l.history l.current
  inputs : l.history.map Transition.input = taken

theorem Tells.step {first : Lifecycle} {taken : List Input} (h : Tells first l taken) :
    Tells first (l.step input).2
      (taken ++ if l.current.accepts input then [input] else []) := by
  cases haccepts : l.current.accepts input with
  | true =>
    obtain ⟨target, action, hvalid, hstep⟩ := step_of_accepts haccepts
    rw [hstep]
    exact ⟨h.chain.snoc rfl ⟨action, hvalid⟩, by simp [h.inputs]⟩
  | false =>
    rw [step_of_not_accepts haccepts]
    exact ⟨h.chain, by simp [h.inputs]⟩

theorem tells_after (first : Lifecycle) (inputs : List Input) :
    Tells first ((starting first).after inputs) ((starting first).accepted inputs) := by
  induction inputs using List.reverseRecOn with
  | nil => exact ⟨rfl, rfl⟩
  | append_singleton inputs input ih =>
    rw [after_snoc, accepted_snoc]
    exact ih.step

/-! ### The end -/

theorem step_of_cancelled (h : l.current = .cancelled) (input : Input) :
    l.step input = (.error (.invalidTransition .cancelled input), l) := by
  rw [step_of_not_accepts (by rw [h]; cases input <;> rfl), h]

/-- A cancelled log refuses all that comes and stays what it is. -/
theorem answers_of_cancelled (h : l.current = .cancelled) (inputs : List Input) :
    l.after inputs = l ∧ l.answers inputs =
      inputs.map fun input => (input, .error (.invalidTransition .cancelled input)) := by
  induction inputs with
  | nil => exact ⟨rfl, rfl⟩
  | cons input rest ih =>
    refine ⟨?_, ?_⟩
    · rw [after, List.foldl_cons, step_of_cancelled h]; exact ih.1
    · rw [answers, step_of_cancelled h, ih.2]; rfl

/-! ### The count -/

/-- The last accepted start of a list of inputs, between those before it and those after it. -/
structure LastStart (l : Log) (inputs before since : List Input) : Prop where
  split : inputs = before ++ .start :: since
  accepted : (l.after before).current.accepts .start = true
  last : ∀ front back, since = front ++ .start :: back →
    (l.after (before ++ .start :: front)).current.accepts .start = false

/-- Since the last accepted start as many passes were asked for as the count of the state says. -/
def CountsPasses (l : Log) (inputs : List Input) (n : Nat) : Prop :=
  ∃ before since, l.LastStart inputs before since ∧
    n = (l.after before).passesAsked (.start :: since)

theorem LastStart.snoc {inputs before since : List Input} (h : l.LastStart inputs before since)
    (hnext : input = .start → (l.after inputs).current.accepts .start = false) :
    l.LastStart (inputs ++ [input]) before (since ++ [input]) := by
  refine ⟨by simp [h.split], h.accepted, fun front back hback => ?_⟩
  rcases List.eq_nil_or_concat back with rfl | ⟨back, later, rfl⟩
  case inl =>
    obtain ⟨rfl, hinput⟩ := List.append_inj' hback rfl
    rw [← h.split]
    exact hnext (List.singleton_inj.1 hinput)
  case inr =>
    have hsplit : since ++ [input] = (front ++ .start :: back) ++ [later] := by simpa using hback
    exact h.last front back (List.append_inj' hsplit rfl).1

theorem CountsPasses.snoc {inputs : List Input} {n : Nat} (h : l.CountsPasses inputs n)
    (hnext : input = .start → (l.after inputs).current.accepts .start = false) :
    l.CountsPasses (inputs ++ [input]) (n + (l.after inputs).passesAsked [input]) := by
  obtain ⟨before, since, hlast, rfl⟩ := h
  refine ⟨before, since ++ [input], hlast.snoc hnext, ?_⟩
  rw [← List.cons_append, passesAsked_snoc, ← after_append, ← hlast.split]

theorem countsPasses_start {inputs : List Input} (h : (l.after inputs).current = .idle) :
    l.CountsPasses (inputs ++ [.start]) 1 := by
  refine ⟨inputs, [], ⟨rfl, by rw [h]; rfl, by simp⟩, ?_⟩
  simp [passesAsked, answers, Log.step, h, Lifecycle.step]

/-- What an input that leaves the schedule running is: a start, a tick, or one that is refused. -/
theorem running_step {n : Nat} (h : (l.step input).2.current = .running n) :
    (l.current = .idle ∧ input = .start ∧ n = 1) ∨
      ∃ m, l.current = .running m ∧ n = m + l.passesAsked [input] := by
  cases hcurrent : l.current with
  | idle => cases input <;> simp_all [Log.step, Lifecycle.step]
  | running m =>
    refine .inr ⟨m, rfl, ?_⟩
    cases input <;> simp_all [Log.step, Lifecycle.step, passesAsked, answers]
  | cancelled => rw [step_of_cancelled hcurrent, hcurrent] at h; cases h

theorem countsPasses_after (inputs : List Input) :
    ∀ n, ((starting .idle).after inputs).current = .running n →
      (starting .idle).CountsPasses inputs n := by
  induction inputs using List.reverseRecOn with
  | nil => rintro n ⟨⟩
  | append_singleton inputs input ih =>
    intro n hn
    rw [after_snoc] at hn
    rcases running_step hn with ⟨hidle, rfl, rfl⟩ | ⟨m, hm, rfl⟩
    · exact countsPasses_start hidle
    · exact (ih m hm).snoc fun _ => by rw [hm]; rfl

/-- CORRECT: whatever a log is fed, its history is a chain of valid transitions from where it began
to where it is, one for each accepted input, in order. The next input is accepted exactly when the
state allows it, and one that is not leaves the log as it was. Once cancelled a log refuses
everything and never changes. From idle, the count of a running log is the number of passes that
were asked for since the last accepted start. -/
theorem history_faithful (first : Lifecycle) (inputs : List Input) :
    let l := (starting first).after inputs
    Chain first l.history l.current ∧
      l.history.map Transition.input = (starting first).accepted inputs ∧
      (∀ input, (l.step input).1.toBool = l.current.accepts input ∧
        (l.current.accepts input = false →
          l.step input = (.error (.invalidTransition l.current input), l))) ∧
      (l.current = .cancelled → ∀ more, l.after more = l ∧ l.answers more =
        more.map fun input => (input, .error (.invalidTransition .cancelled input))) ∧
      (first = .idle → ∀ n, l.current = .running n → (starting first).CountsPasses inputs n) := by
  refine ⟨(tells_after first inputs).chain, (tells_after first inputs).inputs,
    fun input => ⟨toBool_step, step_of_not_accepts⟩, answers_of_cancelled, ?_⟩
  rintro rfl
  exact countsPasses_after inputs

/-- A schedule that is stopped after two passes, refuses a tick, and starts again. -/
def restarted : List Input := [.start, .tick, .stop, .tick, .start, .tick, .start, .tick]

theorem countsPasses_restarted :
    ((starting .idle).after restarted).current = .running 3 ∧
      (starting .idle).accepted restarted = [.start, .tick, .stop, .start, .tick, .tick] ∧
      (starting .idle).CountsPasses restarted 3 :=
  ⟨rfl, rfl, (history_faithful .idle restarted).2.2.2.2 rfl 3 rfl⟩

end Log

end CloudInventory.Lifecycle
