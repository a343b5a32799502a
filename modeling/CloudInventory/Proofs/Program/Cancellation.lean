import CloudInventory.Proofs.Program.Accounts
import CloudInventory.Proofs.Program.Observers
import CloudInventory.Proofs.Record.Bare
import CloudInventory.Shutdown

/-!
What shutdown does to work. Once it has been signalled no call is made, so that nothing more is told
of. What is still published by then is seen by setting the run beside the one in the calm world,
where shutdown overtakes no call. A program lags behind another if it publishes, up to edges, what
the other does, step by step, until it has nothing left to publish; and it yields to shutdown if it
lags behind itself from each of its calls on. The main statement is that a program which yields
publishes a first part of what it does in the calm world.
-/

namespace CloudInventory

variable {σ Call : Type} {Answer : Call → Type} {α β γ δ : Type}

/-- The world with the same answers in which shutdown overtakes no call. -/
def World.calm (w : World Call Answer) : World Call Answer := { w with signal := fun _ _ => none }

/-- How a call that takes some time is overtaken by a signal that is sent some time after it has
begun. -/
def Moment.within (duration sent : Nat) : Moment := if sent < duration then .during else .after

/-! ### Calls -/

namespace Program

/-- What asking, publishing and warning keep is kept by a run. -/
theorem run_keeps {w : World Call Answer} {I : Session Call → Prop}
    (hask : ∀ c t, I t → I (t.ask w c).2)
    (hpublish : ∀ r t, I t → I { t with records := t.records ++ [r] })
    (hwarn : ∀ m t, I t → I { t with warnings := t.warnings ++ [m] }) :
    ∀ (p : Program σ Call Answer α) (t : Session Call), I t → I (p.run w t).2
  | done _, _, h => h
  | call c next, t, h => by
    rw [run_call]
    exact run_keeps hask hpublish hwarn _ _ (hask c t h)
  | cancelled next, t, h => run_keeps hask hpublish hwarn (next t.cancelled) t h
  | publish r next, t, h => run_keeps hask hpublish hwarn next _ (hpublish r t h)
  | warn m next, t, h => run_keeps hask hpublish hwarn next _ (hwarn m t h)
  | crash _, _, h => h

end Program

namespace Session

/-- Shutdown has been signalled if it has overtaken a call, and no call has been made since. -/
def Obeys (w : World Call Answer) (t : Session Call) : Prop :=
  ∀ k c, t.calls[k]? = some c → (w.signal k c).isSome →
    t.cancelled = true ∧ t.calls.length = k + 1

variable {w : World Call Answer} {t : Session Call}

theorem ask_of_cancelled (h : t.cancelled = true) (c : Call) :
    t.ask w c = (.error .cancelled, t) := by
  simp [ask, h]

theorem ask_calls_of_go (h : t.cancelled = false) (c : Call) :
    (t.ask w c).2.calls = t.calls ++ [c] ∧
      (t.ask w c).2.cancelled = (w.signal t.calls.length c).isSome := by
  rw [ask, if_neg (by simp [h])]
  dsimp only
  split
  case h_1 hsignal => exact ⟨rfl, by rw [hsignal]; rfl⟩
  case h_2 hsignal => exact ⟨rfl, by rw [hsignal]; rfl⟩
  case h_3 hsignal => exact ⟨rfl, by rw [hsignal]; exact h⟩

/-- A call that is not overtaken is answered as in the calm world. One that is overtaken is
abandoned, or answered like that. -/
theorem ask_or_ask_calm (h : t.cancelled = false) (c : Call) :
    (t.ask w c = t.ask w.calm c ∧ (t.ask w c).2.cancelled = false) ∨
      (t.ask w c).2.cancelled = true ∧
        ((t.ask w c).1 = .error .cancelled ∨ (t.ask w c).1 = (t.ask w.calm c).1) := by
  rw [ask_of_calm (w := w.calm) (fun _ _ => rfl) h, ask, if_neg (by simp [h])]
  dsimp only
  split
  case h_1 => exact .inr ⟨rfl, .inl rfl⟩
  case h_2 => exact .inr ⟨rfl, .inr rfl⟩
  case h_3 => exact .inl ⟨rfl, h⟩

/-- A call in a world is a guarded call, if the world says how the call is overtaken when it takes
some time and the signal is sent some time after it has begun. -/
theorem ask_eq_guard {s : Shutdown} (hs : s.signalled = t.cancelled) {c : Call} {duration : Nat}
    {after : Option Nat}
    (hsignal : w.signal t.calls.length c = (s.sent? after).map (Moment.within duration)) :
    let guarded := s.guard duration (w.answer t.calls.length c) after
    (t.ask w c).1 = guarded.1.result ∧
      (t.ask w c).2.calls = t.calls ++ (if guarded.1.begun then [c] else []) ∧
      (t.ask w c).2.cancelled = guarded.2.signalled := by
  cases hgo : t.cancelled with
  | true =>
    rw [ask_of_cancelled hgo, Shutdown.guard, if_pos (hs.trans hgo)]
    exact ⟨rfl, (List.append_nil _).symm, by simp [hgo, hs]⟩
  | false =>
    have hgo' : s.signalled = false := hs.trans hgo
    have hbegin : ¬ t.cancelled = true := by simp [hgo]
    have hbegin' : ¬ s.signalled = true := by simp [hgo']
    rw [Session.ask, Shutdown.guard, if_neg hbegin, if_neg hbegin', hsignal]
    cases hsent : s.sent? after with
    | none => exact ⟨rfl, rfl, by simp [hgo, hgo']⟩
    | some sent => by_cases hin : sent < duration <;> simp [Moment.within, hin]

theorem Obeys.ask (h : t.Obeys w) (c : Call) : (t.ask w c).2.Obeys w := by
  cases hgo : t.cancelled with
  | true =>
    rw [ask_of_cancelled hgo]
    exact h
  | false =>
    obtain ⟨hcalls, hcancelled⟩ := ask_calls_of_go (w := w) hgo c
    intro k c' hk hsignal
    rw [hcalls] at hk ⊢
    rw [hcancelled]
    rcases Nat.lt_or_ge k t.calls.length with hlt | hge
    · -- a call before would have been overtaken, and this one not been made
      rw [List.getElem?_append_left hlt] at hk
      rw [(h k c' hk hsignal).1] at hgo
      cases hgo
    · obtain rfl : k = t.calls.length := by
        have hbound := (List.getElem?_eq_some_iff.1 hk).1
        rw [List.length_append, List.length_singleton] at hbound
        omega
      rw [List.getElem?_concat_length] at hk
      obtain rfl := Option.some.inj hk
      exact ⟨hsignal, by simp⟩

end Session

namespace Program

variable {w : World Call Answer} {t : Session Call}

/-- No call is made after the signal. -/
theorem run_obeys (p : Program σ Call Answer α) (h : t.Obeys w) : (p.run w t).2.Obeys w :=
  run_keeps (fun c _ h => h.ask c) (fun _ _ h => h) (fun _ _ h => h) p t h

/-- Once shutdown has been signalled no call is made. -/
theorem run_calls_of_cancelled (p : Program σ Call Answer α) (h : t.cancelled = true) :
    (p.run w t).2.calls = t.calls := by
  refine (run_keeps (w := w) (I := fun t' => t'.cancelled = true ∧ t'.calls = t.calls) ?_
    (fun _ _ h => h) (fun _ _ h => h) p t ⟨h, rfl⟩).2
  intro c t' h'
  rwa [Session.ask_of_cancelled h'.1]

theorem told_run_of_cancelled {ι : Type} (tell : (c : Call) → Answer c → List ι)
    (p : Program σ Call Answer α) (h : t.cancelled = true) :
    (p.run w t).2.told w tell = t.told w tell := by
  rw [Session.told, Session.told, run_calls_of_cancelled p h]

/-- Nothing that has been told of is taken back. -/
theorem told_run {ι : Type} (tell : (c : Call) → Answer c → List ι) (p : Program σ Call Answer α)
    (t : Session Call) : t.told w tell <+: (p.run w t).2.told w tell := by
  refine run_keeps (w := w) (I := fun t' => t.told w tell <+: t'.told w tell) ?_
    (fun _ _ h => h) (fun _ _ h => h) p t List.prefix_rfl
  intro c t' h
  rw [Session.told_ask]
  exact h.trans (List.prefix_append _ _)

theorem records_run (p : Program σ Call Answer α) (t : Session Call) :
    t.records <+: (p.run w t).2.records := by
  refine run_keeps (w := w) (I := fun t' => t.records <+: t'.records) ?_
    (fun r t' h => h.trans (List.prefix_append _ _)) (fun _ _ h => h) p t List.prefix_rfl
  intro c t' h
  rwa [Session.ask_records]

/-- What the answers before the signal tell of is the first part of what is told of in the calm
world. -/
theorem told_run_calm {ι : Type} (tell : (c : Call) → Answer c → List ι) :
    ∀ (p : Program σ Call Answer α) {t : Session Call}, t.cancelled = false →
      t.told w tell = t.told w.calm tell →
      (p.run w t).2.told w tell <+: (p.run w.calm t).2.told w.calm tell
  | done _, _, _, h => h ▸ List.prefix_rfl
  | crash _, _, _, h => h ▸ List.prefix_rfl
  | cancelled next, t, hgo, h => told_run_calm tell (next t.cancelled) hgo h
  | publish _ next, _, hgo, h => told_run_calm tell next hgo h
  | warn _ next, _, hgo, h => told_run_calm tell next hgo h
  | call c next, t, hgo, h => by
    rw [run_call, run_call]
    have htold := t.told_ask w tell c
    have hcalm := t.told_ask w.calm tell c
    rcases Session.ask_or_ask_calm (w := w) hgo c with ⟨hsame, hgo'⟩ | ⟨hover, hanswer⟩
    · rw [← hsame] at hcalm ⊢
      exact told_run_calm tell _ hgo' (by rw [htold, hcalm, h])
    · rw [told_run_of_cancelled tell _ hover, htold, h]
      refine List.IsPrefix.trans ?_ (told_run tell _ _)
      rw [hcalm]
      refine (List.prefix_append_right_inj _).2 ?_
      rcases hanswer with habandoned | hanswered
      · rw [habandoned]
        exact List.nil_prefix
      · exact hanswered ▸ List.prefix_rfl

end Program

/-! ### Lagging behind -/

/-- One run has published a first part of what the other has, up to edges; and all of it if it has
broken off. -/
def Behind (x : Ending σ α × Session Call) (y : Ending σ β × Session Call) : Prop :=
  x.2.records.map Record.bare <+: y.2.records.map Record.bare ∧
    ∀ left, x.1 = .brokenOff left → x.2.records.map Record.bare = y.2.records.map Record.bare

theorem behind_rfl (x : Ending σ α × Session Call) : Behind x x :=
  ⟨List.prefix_rfl, fun _ _ => rfl⟩

namespace Program

/-- Once shutdown has been signalled a program publishes nothing, and it ends with a result that has
a property. -/
inductive Idle (S : α → Prop) : Program σ Call Answer α → Prop
  | done {a : α} (h : S a) : Idle S (.done a)
  | call {c : Call} {next : Except CollectorError (Answer c) → Program σ Call Answer α}
      (h : Idle S (next (.error .cancelled))) : Idle S (.call c next)
  | cancelled {next : Bool → Program σ Call Answer α} (h : Idle S (next true)) :
      Idle S (.cancelled next)
  | warn {m : Warning} {p : Program σ Call Answer α} (h : Idle S p) : Idle S (.warn m p)

/-- Once shutdown has been signalled the first program publishes what the second one does, step by
step, whatever that is answered, and they end with related results. Or else the first one has
nothing left to publish before the other, and then its result has a property. -/
inductive Lags (V : α → β → Prop) (S : α → Prop) :
    Program σ Call Answer α → Program σ Call Answer β → Prop
  | done {a : α} {b : β} (h : V a b) : Lags V S (.done a) (.done b)
  | crash {left left' : σ} : Lags V S (.crash left) (.crash left')
  | publish {r r' : Record} {p : Program σ Call Answer α} {q : Program σ Call Answer β}
      (hbare : r.bare = r'.bare) (h : Lags V S p q) : Lags V S (.publish r p) (.publish r' q)
  | callLeft {c : Call} {next : Except CollectorError (Answer c) → Program σ Call Answer α}
      {q : Program σ Call Answer β} (h : Lags V S (next (.error .cancelled)) q) :
      Lags V S (.call c next) q
  | callRight {c : Call} {p : Program σ Call Answer α}
      {next : Except CollectorError (Answer c) → Program σ Call Answer β}
      (h : ∀ r, Lags V S p (next r)) : Lags V S p (.call c next)
  | cancelledLeft {next : Bool → Program σ Call Answer α} {q : Program σ Call Answer β}
      (h : Lags V S (next true) q) : Lags V S (.cancelled next) q
  | cancelledRight {p : Program σ Call Answer α} {next : Bool → Program σ Call Answer β}
      (h : ∀ b, Lags V S p (next b)) : Lags V S p (.cancelled next)
  | warnLeft {m : Warning} {p : Program σ Call Answer α} {q : Program σ Call Answer β}
      (h : Lags V S p q) : Lags V S (.warn m p) q
  | warnRight {m : Warning} {p : Program σ Call Answer α} {q : Program σ Call Answer β}
      (h : Lags V S p q) : Lags V S p (.warn m q)
  | idle {p : Program σ Call Answer α} {q : Program σ Call Answer β} (h : Idle S p) : Lags V S p q

/-- Wherever shutdown overtakes a call of a program, it goes on lagging behind what it would have
done. -/
inductive Yields (V : α → α → Prop) (S : α → Prop) : Program σ Call Answer α → Prop
  | done (a : α) : Yields V S (.done a)
  | crash (left : σ) : Yields V S (.crash left)
  | publish {r : Record} {p : Program σ Call Answer α} (h : Yields V S p) :
      Yields V S (.publish r p)
  | warn {m : Warning} {p : Program σ Call Answer α} (h : Yields V S p) : Yields V S (.warn m p)
  | cancelled {next : Bool → Program σ Call Answer α} (h : Yields V S (next false)) :
      Yields V S (.cancelled next)
  | call {c : Call} {next : Except CollectorError (Answer c) → Program σ Call Answer α}
      (hgo : ∀ r, Yields V S (next r)) (hafter : ∀ r, Lags V S (next r) (next r))
      (hduring : ∀ r, Lags V S (next (.error .cancelled)) (next r)) : Yields V S (.call c next)

variable {w w' : World Call Answer}

theorem Idle.run {S : α → Prop} {p : Program σ Call Answer α} (h : Idle S p) :
    ∀ {t : Session Call}, t.cancelled = true →
      (p.run w t).2.records = t.records ∧ ∀ left, (p.run w t).1 ≠ .brokenOff left := by
  induction h with
  | done h => exact fun _ => ⟨rfl, fun _ => nofun⟩
  | call _ ih =>
    intro t ht
    rw [run_call, Session.ask_of_cancelled ht]
    exact ih ht
  | cancelled _ ih =>
    intro t ht
    rw [Program.run, ht]
    exact ih ht
  | warn _ ih => exact fun ht => ih ht

theorem Lags.run {V : α → β → Prop} {S : α → Prop} {p : Program σ Call Answer α}
    {q : Program σ Call Answer β} (h : Lags V S p q) : ∀ {t t' : Session Call},
    t.cancelled = true → t.records.map Record.bare = t'.records.map Record.bare →
    Behind (p.run w t) (q.run w' t') := by
  induction h with
  | done _ => exact fun _ hrecords => ⟨hrecords ▸ List.prefix_rfl, fun _ _ => hrecords⟩
  | crash => exact fun _ hrecords => ⟨hrecords ▸ List.prefix_rfl, fun _ _ => hrecords⟩
  | publish hbare _ ih =>
    intro t t' ht hrecords
    refine ih ht ?_
    rw [List.map_append, List.map_append, hrecords, List.map_singleton, List.map_singleton, hbare]
  | callLeft _ ih =>
    intro t t' ht hrecords
    rw [run_call, Session.ask_of_cancelled ht]
    exact ih ht hrecords
  | callRight _ ih =>
    intro t t' ht hrecords
    rw [run_call]
    exact ih _ ht (by rw [Session.ask_records, hrecords])
  | cancelledLeft _ ih =>
    intro t t' ht hrecords
    rw [Program.run, ht]
    exact ih ht hrecords
  | cancelledRight _ ih => exact fun ht hrecords => ih _ ht hrecords
  | warnLeft _ ih => exact fun ht hrecords => ih ht hrecords
  | warnRight _ ih => exact fun ht hrecords => ih ht hrecords
  | idle hidle =>
    intro t t' ht hrecords
    obtain ⟨hnothing, hends⟩ := hidle.run (w := w) ht
    refine ⟨?_, fun left hbroken => absurd hbroken (hends left)⟩
    rw [hnothing, hrecords]
    exact (records_run _ _).map _

/-- A program that yields to shutdown publishes a first part of what it does in the calm world. -/
theorem Yields.run {V : α → α → Prop} {S : α → Prop} {p : Program σ Call Answer α}
    (h : Yields V S p) : ∀ {t : Session Call}, t.cancelled = false →
    Behind (p.run w t) (p.run w.calm t) := by
  induction h with
  | done a => exact fun _ => behind_rfl _
  | crash => exact fun _ => behind_rfl _
  | publish _ ih => exact fun ht => ih ht
  | warn _ ih => exact fun ht => ih ht
  | cancelled _ ih =>
    intro t ht
    rw [Program.run, Program.run, ht]
    exact ih ht
  | @call c next _ hafter hduring ih =>
    intro t ht
    rw [run_call, run_call]
    have hrecords : (t.ask w c).2.records.map Record.bare =
        (t.ask w.calm c).2.records.map Record.bare := by
      rw [Session.ask_records, Session.ask_records]
    rcases Session.ask_or_ask_calm (w := w) ht c with ⟨hsame, hgo⟩ | ⟨hover, habandoned | hsame⟩
    · rw [← hsame]
      exact ih _ hgo
    · rw [habandoned]
      exact (hduring _).run hover hrecords
    · rw [hsame]
      exact (hafter _).run hover hrecords

/-! ### Going on -/

theorem Idle.bind {S : α → Prop} {S' : β → Prop} {p : Program σ Call Answer α} (h : Idle S p)
    {f : α → Program σ Call Answer β} (hf : ∀ a, S a → Idle S' (f a)) : Idle S' (p.bind f) := by
  induction h with
  | done ha => exact hf _ ha
  | call _ ih => exact .call ih
  | cancelled _ ih => exact .cancelled ih
  | warn _ ih => exact .warn ih

theorem Lags.bind {V : α → β → Prop} {S : α → Prop} {V' : γ → δ → Prop} {S' : γ → Prop}
    {p : Program σ Call Answer α} {q : Program σ Call Answer β} (h : Lags V S p q)
    {f : α → Program σ Call Answer γ} {f' : β → Program σ Call Answer δ}
    (hf : ∀ a b, V a b → Lags V' S' (f a) (f' b)) (hover : ∀ a, S a → Idle S' (f a)) :
    Lags V' S' (p.bind f) (q.bind f') := by
  induction h with
  | done hV => exact hf _ _ hV
  | crash => exact .crash
  | publish hbare _ ih => exact .publish hbare ih
  | callLeft _ ih => exact .callLeft ih
  | callRight _ ih => exact .callRight ih
  | cancelledLeft _ ih => exact .cancelledLeft ih
  | cancelledRight _ ih => exact .cancelledRight ih
  | warnLeft _ ih => exact .warnLeft ih
  | warnRight _ ih => exact .warnRight ih
  | idle hidle => exact .idle (hidle.bind hover)

theorem Yields.bind {V : α → α → Prop} {S : α → Prop} {V' : β → β → Prop} {S' : β → Prop}
    {p : Program σ Call Answer α} (h : Yields V S p) {f : α → Program σ Call Answer β}
    (hgo : ∀ a, Yields V' S' (f a)) (hf : ∀ a b, V a b → Lags V' S' (f a) (f b))
    (hover : ∀ a, S a → Idle S' (f a)) : Yields V' S' (p.bind f) := by
  induction h with
  | done a => exact hgo a
  | crash left => exact .crash left
  | publish _ ih => exact .publish ih
  | warn _ ih => exact .warn ih
  | cancelled _ ih => exact .cancelled ih
  | call _ hafter hduring ih =>
    exact .call ih (fun r => (hafter r).bind hf hover) fun r => (hduring r).bind hf hover

theorem Idle.mono {S S' : α → Prop} (hS : ∀ a, S a → S' a) {p : Program σ Call Answer α}
    (h : Idle S p) : Idle S' p :=
  bind_done p ▸ h.bind fun a ha => .done (hS a ha)

theorem Lags.mono {V V' : α → β → Prop} {S S' : α → Prop} (hV : ∀ a b, V a b → V' a b)
    (hS : ∀ a, S a → S' a) {p : Program σ Call Answer α} {q : Program σ Call Answer β}
    (h : Lags V S p q) : Lags V' S' p q :=
  bind_done p ▸ bind_done q ▸ h.bind (fun a b hab => .done (hV a b hab)) fun a ha => .done (hS a ha)

theorem Yields.mono {V V' : α → α → Prop} {S S' : α → Prop} (hV : ∀ a b, V a b → V' a b)
    (hS : ∀ a, S a → S' a) {p : Program σ Call Answer α} (h : Yields V S p) : Yields V' S' p :=
  bind_done p ▸ h.bind Yields.done (fun a b hab => .done (hV a b hab)) fun a ha => .done (hS a ha)

end Program

/-! ### Silent programs -/

/-- An observer that hears no call. -/
def Observer.deaf : Observer Call := ⟨fun _ => false, id⟩

namespace Observer

/-- Of silent programs each lags behind the other. -/
theorem Silent.lags {o : Observer Call} {V : α → β → Prop} {S : α → Prop}
    {p : Program σ Call Answer α} {q : Program σ Call Answer β} (hp : o.Silent p) (hq : o.Silent q)
    (hV : ∀ a b, V a b) : Program.Lags V S p q := by
  induction hp with
  | done a =>
    induction hq with
    | done b => exact .done (hV a b)
    | call _ _ ih => exact .callRight ih
    | warn _ ih => exact .warnRight ih
  | call _ _ ih => exact .callLeft (ih _)
  | warn _ ih => exact .warnLeft ih

/-- A program that publishes nothing once shutdown has been signalled lags behind silent ones. -/
theorem Silent.lags_of_idle {o : Observer Call} {S : α → Prop} {S' : α → Prop}
    {p : Program σ Call Answer α} {q : Program σ Call Answer β} (hp : Program.Idle S p)
    (hq : o.Silent q) : Program.Lags (fun a _ => S a) S' p q := by
  induction hp with
  | done ha =>
    induction hq with
    | done b => exact .done ha
    | call _ _ ih => exact .callRight ih
    | warn _ ih => exact .warnRight ih
  | call _ ih => exact .callLeft ih
  | cancelled _ ih => exact .cancelledLeft ih
  | warn _ ih => exact .warnLeft ih

theorem Silent.yields {o : Observer Call} {V : α → α → Prop} {S : α → Prop}
    {p : Program σ Call Answer α} (hp : o.Silent p) (hV : ∀ a b, V a b) : Program.Yields V S p := by
  induction hp with
  | done a => exact .done a
  | call _ h ih =>
    exact .call ih (fun r => (h r).lags (h r) hV) fun r => (h _).lags (h r) hV
  | warn _ ih => exact .warn ih

end Observer

end CloudInventory
