import CloudInventory.Collector
import CloudInventory.Proofs.Program.Cancellation
import CloudInventory.Proofs.Program.Emits
import CloudInventory.Proofs.Program.Readers
import Mathlib.Algebra.GroupWithZero.Nat

/-!
Scopes together and apart. What a job does with many scopes is set beside what jobs do that have one
of them each, all from the state that the job finds. They run one after another in one world, so
that every call is answered or overtaken as it is in the job, but what one of them writes the others
do not see. The main statement is about scopes that read their state only through a view: the job
publishes what they publish apart, and ends as their ends make up, up to the first one that breaks
off.
-/

namespace CloudInventory

variable {σ τ Call : Type} {Answer : Call → Type} {α β : Type}

/-! ### Going on -/

/-- The world after `k` calls. -/
def World.after (w : World Call Answer) (k : Nat) : World Call Answer where
  answer n := w.answer (k + n)
  signal n := w.signal (k + n)

/-- How a call is answered does not depend on the calls before, and shutdown overtakes none. -/
structure World.Plain (w : World Call Answer) : Prop where
  alike : ∀ k, w.after k = w
  calm : ∀ k c, w.signal k c = none

namespace Session

/-- Something has happened, and then more. -/
def followedBy (t more : Session Call) : Session Call :=
  ⟨more.cancelled, t.calls ++ more.calls, t.records ++ more.records, t.warnings ++ more.warnings⟩

variable {w : World Call Answer} {t : Session Call}

theorem followedBy_start : t.followedBy (.start t.cancelled) = t := by
  simp [followedBy, start]

theorem ask_followedBy (more : Session Call) (c : Call) :
    (t.followedBy more).ask w c = ((more.ask (w.after t.calls.length) c).1,
      t.followedBy (more.ask (w.after t.calls.length) c).2) := by
  have hsignal : w.signal (t.followedBy more).calls.length c =
      (w.after t.calls.length).signal more.calls.length c := by
    simp [followedBy, World.after]
  have hanswer : w.answer (t.followedBy more).calls.length c =
      (w.after t.calls.length).answer more.calls.length c := by
    simp [followedBy, World.after]
  unfold ask
  rw [hsignal, hanswer]
  show (if more.cancelled then _ else _) = _
  split
  · rfl
  · split <;> simp [followedBy]

end Session

/-- The result, if there is one. -/
def Ending.result? : Ending σ α → Option α
  | brokenOff _ => none
  | result a => some a

theorem Ending.result?_eq_none_iff {ending : Ending σ α} :
    ending.result? = none ↔ ∃ left, ending = .brokenOff left := by
  cases ending <;> simp [result?]

namespace Program

theorem run_followedBy (w : World Call Answer) (t : Session Call) :
    ∀ (p : Program σ Call Answer α) (more : Session Call), p.run w (t.followedBy more) =
      ((p.run (w.after t.calls.length) more).1,
        t.followedBy (p.run (w.after t.calls.length) more).2)
  | done _, _ => rfl
  | call c next, more => by
    rw [run_call, run_call, Session.ask_followedBy]
    exact run_followedBy w t _ _
  | cancelled next, more => run_followedBy w t (next more.cancelled) more
  | publish r next, more => by
    have hrest := run_followedBy w t next { more with records := more.records ++ [r] }
    simpa [run, Session.followedBy] using hrest
  | warn m next, more => by
    have hrest := run_followedBy w t next { more with warnings := more.warnings ++ [m] }
    simpa [run, Session.followedBy] using hrest
  | crash _, _ => rfl

/-- What has happened before does not matter to a program, but for the number of the calls and
whether shutdown has been signalled. -/
theorem run_eq_followedBy (w : World Call Answer) (p : Program σ Call Answer α) (t : Session Call) :
    p.run w t = ((p.run (w.after t.calls.length) (.start t.cancelled)).1,
      t.followedBy (p.run (w.after t.calls.length) (.start t.cancelled)).2) := by
  have hrun := run_followedBy w t p (.start t.cancelled)
  rwa [Session.followedBy_start] at hrun

theorem run_cancelled_of_calm {w : World Call Answer} (hcalm : ∀ k c, w.signal k c = none)
    (p : Program σ Call Answer α) {t : Session Call} (h : t.cancelled = false) :
    (p.run w t).2.cancelled = false := by
  refine run_keeps (I := fun t => t.cancelled = false) (fun c t h => ?_) (fun _ _ h => h)
    (fun _ _ h => h) p t h
  rw [Session.ask_of_calm hcalm h]
  exact h

end Program

theorem Work.run_ask {w : World Call Answer} (c : Call) (s : σ) (t : Session Call) :
    ((Work.ask c : Attempt σ Call Answer (Answer c)).run s).run w t =
      (.result ((t.ask w c).1, s), (t.ask w c).2) :=
  Program.run_call w c _ t

/-- On work that ends follows what is to come. -/
theorem Work.run_bind_of_result {m : Work σ Call Answer α} {f : α → Work σ Call Answer β}
    {w : World Call Answer} {s s' : σ} {t t' : Session Call} {a : α}
    (h : (m s).run w t = (.result (a, s'), t')) : ((m >>= f) s).run w t = (f a s').run w t' := by
  show ((m s).bind _).run w t = _
  rw [Program.run_bind, h]

/-- On an attempt that succeeds follows what is to come. -/
theorem Work.run_bind_of_ok {m : Attempt σ Call Answer α} {f : α → Attempt σ Call Answer β}
    {w : World Call Answer} {s s' : σ} {t t' : Session Call} {a : α}
    (h : (m.run s).run w t = (.result (.ok a, s'), t')) :
    ((m >>= f).run s).run w t = ((f a).run s').run w t' := by
  rw [ExceptT.run_bind]
  exact Work.run_bind_of_result h

/-! ### How scopes end -/

namespace Outcome

/-- The count of a success. -/
def count? : Outcome → Option Nat
  | ok n => some n
  | _ => none

/-- The cause of a failure. -/
def cause? : Outcome → Option CollectorError
  | error e => some e
  | _ => none

/-- How scopes end together which end one by one as given: with the sum of the counts when one has
succeeded or there is none, and otherwise with the first error. -/
def together (outcomes : List Outcome) : Outcome :=
  match outcomes.filterMap count?, outcomes.filterMap cause? with
  | [], e :: _ => error e
  | counts, _ => ok counts.sum

theorem together_ne_panic (outcomes : List Outcome) : together outcomes ≠ panic := by
  unfold together
  split <;> simp

/-- Add an outcome to the ones so far, unless it has broken off. -/
def addTo (t : Tally) : Outcome → Option Tally
  | ok n => some (t.add (.ok n))
  | error e => some (t.add (.error e))
  | panic => none

/-- The outcome of work that may have broken off. -/
def ofRun : Option (Except CollectorError Nat) → Outcome
  | some result => ofResult result
  | none => panic

theorem ofRun_eq_panic_iff {run : Option (Except CollectorError Nat)} :
    ofRun run = panic ↔ run = none := by
  rcases run with _ | _ | _ <;> simp [ofRun, ofResult]

theorem foldlM_addTo : ∀ (outcomes : List Outcome) (t : Tally), (∀ o ∈ outcomes, o ≠ panic) →
    outcomes.foldlM addTo t = some
      ⟨t.published + (outcomes.filterMap count?).sum,
        t.succeeded + (outcomes.filterMap count?).length,
        t.firstError.or (outcomes.filterMap cause?).head?⟩
  | [], t, _ => by simp
  | .panic :: _, _, h => absurd rfl (h _ List.mem_cons_self)
  | .ok n :: os, t, h => by
    have hrest := foldlM_addTo os (t.add (.ok n)) fun o ho => h o (List.mem_cons_of_mem _ ho)
    have hcounts : (ok n :: os).filterMap count? = n :: os.filterMap count? := rfl
    have hcauses : (ok n :: os).filterMap cause? = os.filterMap cause? := rfl
    refine hrest.trans (congrArg some ?_)
    rw [hcounts, hcauses, Tally.mk.injEq, List.sum_cons, List.length_cons]
    exact ⟨Nat.add_assoc _ _ _, by rw [Tally.add, Nat.add_right_comm]; rfl, rfl⟩
  | .error e :: os, t, h => by
    have hrest := foldlM_addTo os (t.add (.error e)) fun o ho => h o (List.mem_cons_of_mem _ ho)
    have hcounts : (error e :: os).filterMap count? = os.filterMap count? := rfl
    have hcauses : (error e :: os).filterMap cause? = e :: os.filterMap cause? := rfl
    refine hrest.trans (congrArg some ?_)
    rw [hcounts, hcauses, Tally.mk.injEq, List.head?_cons, Tally.add, Option.or_assoc]
    exact ⟨rfl, rfl, rfl⟩

theorem foldlM_addTo_of_panic : ∀ {outcomes : List Outcome} (t : Tally), panic ∈ outcomes →
    outcomes.foldlM addTo t = none
  | o :: os, t, h => by
    rw [List.foldlM_cons]
    cases o with
    | panic => rfl
    | ok n => exact foldlM_addTo_of_panic _ ((List.mem_cons.1 h).resolve_left (by simp))
    | error e => exact foldlM_addTo_of_panic _ ((List.mem_cons.1 h).resolve_left (by simp))

/-- The tally of the outcomes tells how they end together. -/
theorem ofRun_foldlM (outcomes : List Outcome) :
    ofRun ((outcomes.foldlM addTo .empty).map Tally.finish) =
      if panic ∈ outcomes then panic else together outcomes := by
  by_cases hpanic : panic ∈ outcomes
  · rw [if_pos hpanic, foldlM_addTo_of_panic _ hpanic]
    rfl
  · rw [if_neg hpanic, foldlM_addTo _ _ fun o ho he => hpanic (he ▸ ho)]
    unfold together
    cases outcomes.filterMap count? <;> cases outcomes.filterMap cause? <;>
      simp [Tally.empty, Tally.finish, ofRun, ofResult]

end Outcome

/-! ### Reports -/

namespace JobReport

/-- Reports up to the first of something that has broken off. -/
def upToPanic : List JobReport → List JobReport
  | [] => []
  | r :: rs => if r.outcome = .panic then [r] else r :: upToPanic rs

theorem upToPanic_eq_self : ∀ {rs : List JobReport}, (∀ r ∈ rs, r.outcome ≠ .panic) →
    upToPanic rs = rs
  | [], _ => rfl
  | r :: rs, h => by
    rw [upToPanic, if_neg (h r List.mem_cons_self),
      upToPanic_eq_self fun r hr => h r (List.mem_cons_of_mem _ hr)]

/-- A job does with its scopes what is done with each of them apart, one after another, and ends as
they end together. -/
structure Isolated (whole : JobReport) (alone : List JobReport) : Prop where
  records : whole.records = alone.flatMap JobReport.records
  warnings : whole.warnings = alone.flatMap JobReport.warnings
  outcome : whole.outcome = .together (alone.map JobReport.outcome)

/-- As `Isolated`, but up to the first scope that breaks off; and the job breaks off there, too. -/
structure Follows (whole : JobReport) (alone : List JobReport) : Prop where
  records : whole.records = (upToPanic alone).flatMap JobReport.records
  warnings : whole.warnings = (upToPanic alone).flatMap JobReport.warnings
  outcome : whole.outcome = if .panic ∈ alone.map JobReport.outcome then .panic
    else .together (alone.map JobReport.outcome)

/-- Scopes are isolated exactly when none of them breaks off. -/
theorem Follows.isolated_iff {whole : JobReport} {alone : List JobReport}
    (h : whole.Follows alone) : whole.Isolated alone ↔ ∀ r ∈ alone, r.outcome ≠ .panic := by
  constructor
  · intro hisolated r hr hpanic
    have houtcome := h.outcome
    rw [if_pos (hpanic ▸ List.mem_map_of_mem hr), hisolated.outcome] at houtcome
    exact Outcome.together_ne_panic _ houtcome
  · intro hall
    have hnone : .panic ∉ alone.map JobReport.outcome := by
      rintro hmem
      obtain ⟨r, hr, hpanic⟩ := List.mem_map.1 hmem
      exact hall r hr hpanic
    have hself := upToPanic_eq_self hall
    exact ⟨hself ▸ h.records, hself ▸ h.warnings, h.outcome.trans (if_neg hnone)⟩

end JobReport

namespace Job

/-- The reports of jobs that each find the same state, run one after another in a world in which
`k` calls have been made. -/
def reportApart (w : World Call Answer) (words : Call → List String) (s : σ) :
    List (Job σ Call Answer) → Nat → Bool → List JobReport
  | [], _, _ => []
  | j :: js, k, cancelled =>
    let (report, _, cancelled) := j.report (w.after k) words s cancelled
    report :: reportApart w words s js (k + report.calls.length) cancelled

theorem reportApart_cons (w : World Call Answer) (words : Call → List String) (s : σ)
    (j : Job σ Call Answer) (js : List (Job σ Call Answer)) (k : Nat) (cancelled : Bool) :
    reportApart w words s (j :: js) k cancelled =
      (j.report (w.after k) words s cancelled).1 ::
        reportApart w words s js (k + (j.report (w.after k) words s cancelled).1.calls.length)
          (j.report (w.after k) words s cancelled).2.2 := rfl

theorem exists_of_mem_reportApart {w : World Call Answer} {words : Call → List String} {s : σ}
    {r : JobReport} : ∀ {js : List (Job σ Call Answer)} {k : Nat} {cancelled : Bool},
      r ∈ reportApart w words s js k cancelled →
        ∃ j ∈ js, ∃ k' cancelled', r = (j.report (w.after k') words s cancelled').1
  | [], _, _, hr => absurd hr List.not_mem_nil
  | j :: js, k, cancelled, hr => by
    rw [reportApart_cons] at hr
    rcases List.mem_cons.1 hr with rfl | hr
    · exact ⟨j, List.mem_cons_self, k, cancelled, rfl⟩
    · obtain ⟨j', hj', hreport⟩ := exists_of_mem_reportApart hr
      exact ⟨j', List.mem_cons_of_mem _ hj', hreport⟩

/-- What a job reports of a run. -/
def reportOf (j : Job σ Call Answer) (words : Call → List String)
    (run : Option (Except CollectorError Nat) × Session Call) : JobReport :=
  ⟨j.type, j.scope, .ofRun run.1, run.2.records, run.2.calls.map words, run.2.warnings⟩

theorem report_eq (j : Job σ Call Answer) {w : World Call Answer} (words : Call → List String)
    {s : σ} {cancelled : Bool} {run : Ending σ (Except CollectorError Nat × σ) × Session Call}
    (h : (j.work.run s).run w (.start cancelled) = run) :
    (j.report w words s cancelled).1 = j.reportOf words (run.1.result?.map Prod.fst, run.2) ∧
      (j.report w words s cancelled).2.2 = run.2.cancelled := by
  have hrun : j.work.run.run s = j.work.run s := rfl
  rw [report, hrun, h]
  obtain ⟨_ | _, _⟩ := run <;> exact ⟨rfl, rfl⟩

/-- In a plain world each of the jobs does what it does on its own. -/
theorem reportApart_eq_map {w : World Call Answer} (hw : w.Plain) (words : Call → List String)
    (s : σ) : ∀ (js : List (Job σ Call Answer)) (k : Nat),
      reportApart w words s js k false = js.map fun j => (j.report w words s false).1
  | [], _ => rfl
  | j :: js, k => by
    have hcancelled : (j.report w words s false).2.2 = false := by
      rw [(j.report_eq words rfl).2]
      exact Program.run_cancelled_of_calm hw.calm _ rfl
    rw [reportApart_cons, hw.alike, hcancelled, List.map_cons, reportApart_eq_map hw words s js]

end Job

/-! ### Scopes one after another -/

namespace Work

variable {B : Prop} {view : σ → τ} {collect : String → Attempt σ Call Answer Nat}

/-- To go through a single scope is to attempt it. -/
theorem run_scopes_singleton (collect : String → Attempt σ Call Answer Nat) (p : String) :
    (scopes collect [p]).run = attempted collect p := by
  have hfinish : ∀ outcome, (Tally.empty.add outcome).finish = outcome := by
    intro outcome
    cases outcome <;> simp [Tally.empty, Tally.add, Tally.finish]
  have hrun : (scopes collect [p]).run =
      scopesFrom collect .empty [p] >>= fun t => pure t.finish := rfl
  rw [hrun, scopesFrom_cons, bind_assoc]
  simp only [scopesFrom, pure_bind, hfinish, bind_pure]

/-- What a job reports that has a single scope. -/
theorem report_scope {j : Job σ Call Answer} {p : String} (hj : j.work = scopes collect [p])
    (w : World Call Answer) (words : Call → List String) (s : σ) (cancelled : Bool) :
    let run := (attempted collect p s).run w (.start cancelled)
    (j.report w words s cancelled).1 = j.reportOf words (run.1.result?.map Prod.fst, run.2) ∧
      (j.report w words s cancelled).2.2 = run.2.cancelled :=
  j.report_eq words (by rw [hj, run_scopes_singleton])

theorem readsOnly_attempted {p : String} (h : ReadsOnly B view (collect p).run) :
    ReadsOnly B view (attempted collect p) := by
  refine h.bind fun outcome => ReadsOnly.bind ?_ fun _ => readsOnly_pure outcome
  rcases outcome with (_ | _) | _
  all_goals first | exact readsOnly_pure () | exact readsOnly_warn _

/-- A run that goes on after `t` does what reports tell, up to the first of something that has
broken off, and its tally is that of their outcomes. -/
structure Tallies (tally : Tally) (t : Session Call) (reports : List JobReport)
    (run : Ending σ (Tally × σ) × Session Call) : Prop where
  result : run.1.result?.map Prod.fst = (reports.map JobReport.outcome).foldlM Outcome.addTo tally
  records : run.2.records = t.records ++ (JobReport.upToPanic reports).flatMap JobReport.records
  warnings : run.2.warnings = t.warnings ++ (JobReport.upToPanic reports).flatMap JobReport.warnings

theorem tallies_nil (tally : Tally) (t : Session Call) (s : σ) :
    Tallies tally t [] (.result (tally, s), t) :=
  ⟨rfl, (List.append_nil _).symm, (List.append_nil _).symm⟩

/-- Nothing follows a scope that breaks off. -/
theorem tallies_broken (tally : Tally) (t more : Session Call) (j : Job σ Call Answer)
    (words : Call → List String) (rest : List JobReport) (left : σ) :
    Tallies tally t (j.reportOf words (none, more) :: rest)
      (.brokenOff left, t.followedBy more) where
  result := rfl
  records := by simp [JobReport.upToPanic, Job.reportOf, Outcome.ofRun, Session.followedBy]
  warnings := by simp [JobReport.upToPanic, Job.reportOf, Outcome.ofRun, Session.followedBy]

/-- After a scope that ends come the others. -/
theorem Tallies.cons {tally : Tally} {t more : Session Call} {outcome : Except CollectorError Nat}
    {reports : List JobReport} {run : Ending σ (Tally × σ) × Session Call}
    (h : Tallies (tally.add outcome) (t.followedBy more) reports run) (j : Job σ Call Answer)
    (words : Call → List String) :
    Tallies tally t (j.reportOf words (some outcome, more) :: reports) run where
  result := by
    rw [h.result]
    cases outcome <;> rfl
  records := by
    rw [h.records]
    cases outcome <;> simp [JobReport.upToPanic, Job.reportOf, Outcome.ofRun, Outcome.ofResult,
      Session.followedBy]
  warnings := by
    rw [h.warnings]
    cases outcome <;> simp [JobReport.upToPanic, Job.reportOf, Outcome.ofRun, Outcome.ofResult,
      Session.followedBy]

/-- Scopes that read their state only through a view do together what they do apart. -/
theorem tallies_scopesFrom (hreads : ∀ p, ReadsOnly B view (collect p).run) (w : World Call Answer)
    (words : Call → List String) (s : σ) : ∀ (ps : List String) {js : List (Job σ Call Answer)}
    (tally : Tally) {s' : σ} (t : Session Call),
    js.map Job.work = ps.map (fun p => scopes collect [p]) → view s' = view s →
    Tallies tally t (Job.reportApart w words s js t.calls.length t.cancelled)
      ((scopesFrom collect tally ps s').run w t)
  | [], js, tally, s', t, hjs, _ => by
    obtain rfl := List.map_eq_nil_iff.1 hjs
    exact tallies_nil tally t s'
  | p :: ps, [], _, _, _, hjs, _ => by simp at hjs
  | p :: ps, j :: js, tally, s', t, hjs, hview => by
    obtain ⟨hj, hjs⟩ := List.cons.inj hjs
    -- the attempt at the first scope, from the state it finds and from the one it would find alone
    have hsame := (readsOnly_attempted (hreads p) s' s hview).run w t
    rw [Program.run_eq_followedBy w (attempted collect p s)] at hsame
    obtain ⟨hresult, hsession, -⟩ := hsame
    obtain ⟨hreport, hcancelled⟩ := report_scope hj (w.after t.calls.length) words s t.cancelled
    have hbind : scopesFrom collect tally (p :: ps) s' = (attempted collect p s').bind fun found =>
        scopesFrom collect (tally.add found.1) ps found.2 := by
      rw [scopesFrom_cons]
      rfl
    rw [hbind, Program.run_bind, Job.reportApart_cons, hreport, hcancelled]
    generalize (attempted collect p s).run (w.after t.calls.length) (.start t.cancelled) = alone
      at hresult hsession ⊢
    generalize (attempted collect p s').run w t = whole at hresult hsession ⊢
    obtain ⟨result, more⟩ := alone
    obtain ⟨result', t'⟩ := whole
    obtain rfl : t' = t.followedBy more := hsession
    cases hresult with
    | brokenOff => exact tallies_broken tally t more j words _ _
    | @result found found' hsame =>
      obtain ⟨outcome, s₁⟩ := found
      obtain ⟨_, s₂⟩ := found'
      obtain ⟨rfl, hview', -⟩ := hsame
      have hrest := tallies_scopesFrom hreads w words s ps (tally.add outcome)
        (t.followedBy more) hjs (hview'.trans hview)
      have hlength : (t.followedBy more).calls.length =
          t.calls.length + (more.calls.map words).length := by
        simp [Session.followedBy]
      rw [hlength] at hrest
      exact hrest.cons j words

/-- A scope breaks off only for the given reason. -/
theorem breaks_of_panic (hreads : ∀ p, ReadsOnly B view (collect p).run) {w : World Call Answer}
    {words : Call → List String} {s : σ} {ps : List String} {js : List (Job σ Call Answer)}
    {k : Nat} {cancelled : Bool} (hjs : js.map Job.work = ps.map fun p => scopes collect [p]) :
    ∀ r ∈ Job.reportApart w words s js k cancelled, r.outcome = .panic → B := by
  intro r hr hpanic
  obtain ⟨j, hj, k', cancelled', rfl⟩ := Job.exists_of_mem_reportApart hr
  have hwork : j.work ∈ ps.map fun p => scopes collect [p] := hjs ▸ List.mem_map_of_mem hj
  obtain ⟨p, -, hp⟩ := List.mem_map.1 hwork
  obtain ⟨-, -, hbreaks⟩ := (readsOnly_attempted (hreads p) s s rfl).run (w.after k')
    (.start cancelled')
  rw [(report_scope hp.symm (w.after k') words s cancelled').1] at hpanic
  obtain ⟨left, hleft⟩ := Ending.result?_eq_none_iff.1
    (Option.map_eq_none_iff.1 (Outcome.ofRun_eq_panic_iff.1 hpanic))
  exact hbreaks left hleft

/-- A job that goes through such scopes, at once or when it has made some calls, follows what jobs
do that have one of them each. -/
theorem report_follows (hreads : ∀ p, ReadsOnly B view (collect p).run) {w : World Call Answer}
    {s : σ} {cancelled : Bool} {t : Session Call} {ps : List String} {j : Job σ Call Answer}
    {js : List (Job σ Call Answer)} (words : Call → List String)
    (hj : (j.work.run s).run w (.start cancelled) = ((scopes collect ps).run s).run w t)
    (hjs : js.map Job.work = ps.map fun p => scopes collect [p]) (hrecords : t.records = [])
    (hwarnings : t.warnings = []) :
    (j.report w words s cancelled).1.Follows
      (Job.reportApart w words s js t.calls.length t.cancelled) := by
  have htallies := tallies_scopesFrom hreads w words s ps .empty t hjs rfl
  have hbind : (scopes collect ps).run s = (scopesFrom collect .empty ps s).bind fun found =>
      .done (found.1.finish, found.2) := rfl
  rw [hbind, Program.run_bind] at hj
  rw [(j.report_eq words hj).1]
  generalize (scopesFrom collect .empty ps s).run w t = run at htallies ⊢
  obtain ⟨hresult, hrun, hwarned⟩ := htallies
  rw [hrecords, List.nil_append] at hrun
  rw [hwarnings, List.nil_append] at hwarned
  have houtcome := Outcome.ofRun_foldlM
    ((Job.reportApart w words s js t.calls.length t.cancelled).map JobReport.outcome)
  rw [← hresult] at houtcome
  obtain ⟨_ | ⟨tally, s'⟩, t'⟩ := run
  · exact ⟨hrun, hwarned, houtcome⟩
  · exact ⟨hrun, hwarned, houtcome⟩

end Work

end CloudInventory
