import CloudInventory.Scopes
import Mathlib.Data.List.Basic

/-!
What work does in a world. `Ensures w R m s t Q` says of work `m`, begun with state `s` when `t` has
happened, that `Q` holds of its result, of the state it leaves and of what has happened by then; or,
if it breaks off, that `R` holds of the state it leaves and of what has happened. There is one rule
for each step that work can be made of, and one for each way of going through a list, which asks for
an invariant.
-/

namespace CloudInventory

variable {σ Call : Type} {Answer : Call → Type} {α β γ : Type}

/-! ### Calls -/

namespace Session

/-- The answer to a call, and what has happened after it. -/
def ask (w : World Call Answer) (c : Call) (t : Session Call) :
    Except CollectorError (Answer c) × Session Call :=
  if t.cancelled then (.error .cancelled, t)
  else
    let begun := { t with calls := t.calls ++ [c] }
    match w.signal t.calls.length c with
    | some .during => (.error .cancelled, { begun with cancelled := true })
    | some .after => (w.answer t.calls.length c, { begun with cancelled := true })
    | none => (w.answer t.calls.length c, begun)

/-- A call has been made, not abandoned, and answered with `a`. -/
def Heard (w : World Call Answer) (t : Session Call) (c : Call) (a : Answer c) : Prop :=
  ∃ k : Nat, t.calls[k]? = some c ∧ w.signal k c ≠ some .during ∧ w.answer k c = .ok a

variable {w : World Call Answer} {c : Call} {t t' : Session Call}

theorem Heard.later {a : Answer c} (h : Heard w t c a) (hcalls : t.calls <+: t'.calls) :
    Heard w t' c a := by
  obtain ⟨k, hk, hrest⟩ := h
  obtain ⟨more, hmore⟩ := hcalls
  have hlt : k < t.calls.length := (List.getElem?_eq_some_iff.1 hk).1
  exact ⟨k, by rw [← hmore, List.getElem?_append_left hlt, hk], hrest⟩

theorem ask_calls : t.calls <+: (t.ask w c).2.calls := by
  unfold ask
  split
  · exact List.prefix_rfl
  · split <;> exact List.prefix_append _ _

@[simp] theorem ask_records : (t.ask w c).2.records = t.records := by
  unfold ask
  split
  · rfl
  · split <;> rfl

@[simp] theorem ask_warnings : (t.ask w c).2.warnings = t.warnings := by
  unfold ask
  split
  · rfl
  · split <;> rfl

theorem heard_of_ask {a : Answer c} (h : (t.ask w c).1 = .ok a) : Heard w (t.ask w c).2 c a := by
  unfold ask at h ⊢
  split at h
  · cases h
  case isFalse hgo =>
    rw [if_neg hgo]
    refine ⟨t.calls.length, ?_⟩
    split at h
    · cases h
    case h_2 hsignal =>
      simp only [hsignal]
      exact ⟨List.getElem?_concat_length, by simp, h⟩
    case h_3 hsignal =>
      simp only [hsignal]
      exact ⟨List.getElem?_concat_length, by simp, h⟩

/-- In a world where shutdown overtakes no call, the answer is the one that the world has. -/
theorem ask_of_calm (hcalm : ∀ k c, w.signal k c = none) (hgo : t.cancelled = false) :
    t.ask w c = (w.answer t.calls.length c, { t with calls := t.calls ++ [c] }) := by
  simp [ask, hgo, hcalm]

end Session

/-- Both programs break off, or both have results, and these are related. -/
inductive Ending.Rel {τ : Type} (V : α → β → Prop) : Ending σ α → Ending τ β → Prop
  | brokenOff {left : σ} {left' : τ} : Rel V (.brokenOff left) (.brokenOff left')
  | result {a : α} {b : β} (h : V a b) : Rel V (.result a) (.result b)

namespace Program

theorem run_bind (w : World Call Answer) (f : α → Program σ Call Answer β) :
    ∀ (p : Program σ Call Answer α) (t : Session Call), (p.bind f).run w t =
      match p.run w t with
      | (.result a, t) => (f a).run w t
      | (.brokenOff left, t) => (.brokenOff left, t)
  | done _, _ => rfl
  | call c next, t => by
    simp only [Program.bind, run]
    split
    · exact run_bind w f _ _
    · split <;> exact run_bind w f _ _
  | cancelled next, t => run_bind w f (next t.cancelled) t
  | publish r next, t => run_bind w f next _
  | warn m next, t => run_bind w f next _
  | crash _, _ => rfl

theorem bind_done : ∀ p : Program σ Call Answer α, p.bind done = p
  | done _ => rfl
  | call c next => congrArg (call c) (funext fun r => bind_done (next r))
  | cancelled next => congrArg cancelled (funext fun b => bind_done (next b))
  | publish r next => congrArg (publish r) (bind_done next)
  | warn m next => congrArg (warn m) (bind_done next)
  | crash _ => rfl

theorem bind_bind (f : α → Program σ Call Answer β) (g : β → Program σ Call Answer γ) :
    ∀ p : Program σ Call Answer α, (p.bind f).bind g = p.bind fun a => (f a).bind g
  | done _ => rfl
  | call c next => congrArg (call c) (funext fun r => bind_bind f g (next r))
  | cancelled next => congrArg cancelled (funext fun b => bind_bind f g (next b))
  | publish r next => congrArg (publish r) (bind_bind f g next)
  | warn m next => congrArg (warn m) (bind_bind f g next)
  | crash _ => rfl

instance : LawfulMonad (Program σ Call Answer) :=
  LawfulMonad.mk' (Program σ Call Answer) bind_done (fun _ _ => rfl) fun p f g => bind_bind f g p

theorem run_call (w : World Call Answer) (c : Call)
    (next : Except CollectorError (Answer c) → Program σ Call Answer α) (t : Session Call) :
    (call c next).run w t = (next (t.ask w c).1).run w (t.ask w c).2 := by
  rw [run, Session.ask]
  split
  · rfl
  · dsimp only
    split <;> simp_all

end Program

/-! ### Steps of work -/

namespace Work

/-- Work begun with state `s` when `t` has happened ends, and `Q` holds of what comes of it; or it
breaks off, and `R` holds of what it leaves. -/
def Ensures (w : World Call Answer) (R : σ → Session Call → Prop) (m : Work σ Call Answer α) (s : σ)
    (t : Session Call) (Q : α → σ → Session Call → Prop) : Prop :=
  match (m s).run w t with
  | (.result (a, s'), t') => Q a s' t'
  | (.brokenOff s', t') => R s' t'

variable {w : World Call Answer} {R : σ → Session Call → Prop} {s : σ} {t : Session Call}

theorem Ensures.mono {m : Work σ Call Answer α} {P Q : α → σ → Session Call → Prop}
    (h : Ensures w R m s t P) (hPQ : ∀ a s' t', P a s' t' → Q a s' t') : Ensures w R m s t Q := by
  unfold Ensures at h ⊢
  split at h
  · exact hPQ _ _ _ h
  · exact h

theorem Ensures.weaken {m : Work σ Call Answer α} {R' : σ → Session Call → Prop}
    {Q : α → σ → Session Call → Prop} (h : Ensures w R m s t Q)
    (hR : ∀ s' t', R s' t' → R' s' t') : Ensures w R' m s t Q := by
  unfold Ensures at h ⊢
  split at h
  · exact h
  · exact hR _ _ h

/-- What comes of work is also what its run says. -/
theorem Ensures.and_run {m : Work σ Call Answer α} {Q : α → σ → Session Call → Prop}
    (h : Ensures w R m s t Q) :
    Ensures w R m s t fun a s' t' => Q a s' t' ∧ (m s).run w t = (.result (a, s'), t') := by
  unfold Ensures at h ⊢
  split at h
  case h_1 hrun => exact ⟨h, hrun⟩
  case h_2 => exact h

/-- Work ends in one of two ways. -/
theorem Ensures.ends {m : Work σ Call Answer α} {Q : α → σ → Session Call → Prop}
    (h : Ensures w R m s t Q) :
    (∃ left t', (m s).run w t = (.brokenOff left, t') ∧ R left t') ∨
      ∃ a s' t', (m s).run w t = (.result (a, s'), t') ∧ Q a s' t' := by
  unfold Ensures at h
  split at h
  case h_1 hrun => exact .inr ⟨_, _, _, hrun, h⟩
  case h_2 hrun => exact .inl ⟨_, _, hrun, h⟩

/-- Work that never breaks off has a result. -/
theorem Ensures.exists_result {m : Work σ Call Answer α} {Q : α → σ → Session Call → Prop}
    (h : Ensures w (fun _ _ => False) m s t Q) :
    ∃ a s' t', (m s).run w t = (.result (a, s'), t') ∧ Q a s' t' :=
  h.ends.resolve_left fun ⟨_, _, _, hleft⟩ => hleft

theorem ensures_pure {a : α} {Q : α → σ → Session Call → Prop} (h : Q a s t) :
    Ensures w R (pure a) s t Q := h

theorem ensures_bind {m : Work σ Call Answer α} {f : α → Work σ Call Answer β}
    {Q : β → σ → Session Call → Prop}
    (h : Ensures w R m s t fun a s' t' => Ensures w R (f a) s' t' Q) :
    Ensures w R (m >>= f) s t Q := by
  have hbind : (m >>= f) s = (m s).bind fun p => f p.1 p.2 := rfl
  rw [Ensures, hbind, Program.run_bind]
  obtain ⟨left, t', hrun, hleft⟩ | ⟨a, s', t', hrun, hrest⟩ := h.ends
  · rw [hrun]
    exact hleft
  · rw [hrun]
    unfold Ensures at hrest
    exact hrest

theorem ensures_crash {Q : α → σ → Session Call → Prop} (h : R s t) :
    Ensures w R (crash : Work σ Call Answer α) s t Q := h

theorem ensures_modifyGet {f : σ → α × σ} {Q : α → σ → Session Call → Prop}
    (h : Q (f s).1 (f s).2 t) : Ensures w R (modifyGet f : Work σ Call Answer α) s t Q := h

theorem ensures_modify {f : σ → σ} {Q : Unit → σ → Session Call → Prop} (h : Q () (f s) t) :
    Ensures w R (modify f : Work σ Call Answer Unit) s t Q := h

theorem ensures_publish {r : Record} {Q : Unit → σ → Session Call → Prop}
    (h : Q () s { t with records := t.records ++ [r] }) : Ensures w R (publish r) s t Q := h

theorem ensures_warn {m : Warning} {Q : Unit → σ → Session Call → Prop}
    (h : Q () s { t with warnings := t.warnings ++ [m] }) : Ensures w R (warn m) s t Q := h

theorem ensures_skip {type : AssetType} {field : String} {Q : Nat → σ → Session Call → Prop}
    (h : ∀ warnings, Q 0 s { t with warnings }) : Ensures w R (Emitter.skip type field) s t Q :=
  ensures_bind (ensures_warn (ensures_pure (h _)))

/-! ### Attempts -/

theorem ensures_ask {c : Call} {Q : Except CollectorError (Answer c) → σ → Session Call → Prop}
    (h : Q (t.ask w c).1 s (t.ask w c).2) : Ensures w R (ask c).run s t Q := by
  have hask : (ask c : Attempt σ Call Answer (Answer c)).run s =
      .call c fun r => .done (r, s) := rfl
  rw [Ensures, hask, Program.run_call]
  exact h

theorem ensures_checkpoint {Q : Except CollectorError Unit → σ → Session Call → Prop}
    (h : ∀ r, Q r s t) : Ensures w R (checkpoint : Attempt σ Call Answer Unit).run s t Q := by
  unfold Ensures
  exact h _

/-- Work as an attempt does not fail. -/
theorem run_lift (m : Work σ Call Answer α) :
    (monadLift m : Attempt σ Call Answer α).run = m >>= fun a => pure (.ok a) := rfl

/-- Work as an attempt goes on. -/
theorem run_lift_bind (m : Work σ Call Answer α) (f : α → Attempt σ Call Answer β) :
    ((monadLift m : Attempt σ Call Answer α) >>= f).run = m >>= fun a => (f a).run := by
  rw [ExceptT.run_bind, run_lift, bind_assoc]
  rfl

theorem ensures_lift {m : Work σ Call Answer α}
    {Q : Except CollectorError α → σ → Session Call → Prop}
    (h : Ensures w R m s t fun a s' t' => Q (.ok a) s' t') :
    Ensures w R (monadLift m : Attempt σ Call Answer α).run s t Q := by
  rw [run_lift]
  exact ensures_bind h

/-- After a failure nothing of the attempt is done. -/
theorem ensures_attempt {m : Attempt σ Call Answer α} {f : α → Attempt σ Call Answer β}
    {Q : Except CollectorError β → σ → Session Call → Prop}
    (h : Ensures w R m.run s t fun r s' t' => match r with
      | .ok a => Ensures w R (f a).run s' t' Q
      | .error e => Q (.error e) s' t') :
    Ensures w R (m >>= f).run s t Q := by
  rw [ExceptT.run_bind]
  refine ensures_bind (h.mono fun r s' t' hr => ?_)
  cases r with
  | ok a => exact hr
  | error e => exact hr

theorem ensures_return {a : α} {Q : Except CollectorError α → σ → Session Call → Prop}
    (h : Q (.ok a) s t) : Ensures w R (pure a : Attempt σ Call Answer α).run s t Q := h

/-! ### Going through lists -/

/-- Work on every item in turn: an invariant of the items done so far. -/
theorem ensures_total {f : α → Work σ Call Answer Nat} (I : List α → σ → Session Call → Prop)
    {as : List α}
    (hstep : ∀ done a, done ++ [a] <+: as → ∀ s t, I done s t →
      Ensures w R (f a) s t fun _ => I (done ++ [a]))
    (hstart : I [] s t) : Ensures w R (total f as) s t fun _ => I as := by
  suffices h : ∀ (rest done : List α) (s : σ) (t : Session Call), done ++ rest = as → I done s t →
      Ensures w R (total f rest) s t fun _ => I as from h as [] s t rfl hstart
  intro rest
  induction rest with
  | nil =>
    rintro done s t rfl hI
    exact ensures_pure (by simpa using hI)
  | cons a rest ih =>
    rintro done s t hsplit hI
    have hsplit' : (done ++ [a]) ++ rest = as := by simpa using hsplit
    refine ensures_bind ((hstep done a ⟨rest, hsplit'⟩ s t hI).mono fun n s' t' hI' => ?_)
    refine ensures_bind ((ih (done ++ [a]) s' t' hsplit' hI').mono fun m s'' t'' hI'' => ?_)
    exact ensures_pure hI''

/-- A call, and work on every item of its answer. -/
theorem ensures_askTotal {c : Call} {items : Answer c → List α} {f : α → Work σ Call Answer Nat}
    {Q : Except CollectorError Nat → σ → Session Call → Prop}
    (hfail : ∀ e, (t.ask w c).1 = .error e → Q (.error e) s (t.ask w c).2)
    (hok : ∀ a, (t.ask w c).1 = .ok a →
      Ensures w R (total f (items a)) s (t.ask w c).2 fun n => Q (.ok n)) :
    Ensures w R (do let a ← ask c; total f (items a) : Attempt σ Call Answer Nat).run s t Q := by
  refine ensures_attempt (ensures_ask ?_)
  cases hanswer : (t.ask w c).1 with
  | error e => exact hfail e hanswer
  | ok a => exact ensures_lift (hok a hanswer)

/-- Attempts at every item in turn: an invariant of the items done so far, and what holds once an
attempt has failed. -/
theorem ensures_totalAttempt {f : α → Attempt σ Call Answer Nat}
    (I : List α → σ → Session Call → Prop) (F : σ → Session Call → Prop) {as : List α}
    (hstep : ∀ done a, done ++ [a] <+: as → ∀ s t, I done s t →
      Ensures w R (f a).run s t fun r => match r with
        | .ok _ => I (done ++ [a])
        | .error _ => F)
    (hstart : I [] s t) :
    Ensures w R (totalAttempt f as).run s t fun r => match r with
      | .ok _ => I as
      | .error _ => F := by
  suffices h : ∀ (rest done : List α) (s : σ) (t : Session Call), done ++ rest = as → I done s t →
      Ensures w R (totalAttempt f rest).run s t fun r => match r with
        | .ok _ => I as
        | .error _ => F from h as [] s t rfl hstart
  intro rest
  induction rest with
  | nil =>
    rintro done s t rfl hI
    exact ensures_return (by simpa using hI)
  | cons a rest ih =>
    rintro done s t hsplit hI
    have hsplit' : (done ++ [a]) ++ rest = as := by simpa using hsplit
    refine ensures_attempt ((hstep done a ⟨rest, hsplit'⟩ s t hI).mono fun r s' t' hr => ?_)
    cases r with
    | error e => exact hr
    | ok n =>
      refine ensures_attempt ((ih (done ++ [a]) s' t' hsplit' hr).mono fun r s'' t'' hr' => ?_)
      cases r with
      | error e => exact hr'
      | ok m => exact ensures_return hr'

/-- An attempt at a single item. -/
theorem ensures_totalAttempt_singleton {f : α → Attempt σ Call Answer Nat} {a : α}
    {Q : σ → Session Call → Prop} (h : Ensures w R (f a).run s t fun _ => Q) :
    Ensures w R (totalAttempt f [a]).run s t fun _ => Q := by
  refine ensures_attempt (h.mono fun r s' t' hQ => ?_)
  cases r with
  | error e => exact hQ
  | ok n => exact ensures_attempt (ensures_return (ensures_return hQ))

theorem ensures_warnOfScope {outcome : Except CollectorError Nat}
    {Q : Unit → σ → Session Call → Prop}
    (h : ∀ warnings, Q () s { t with warnings }) : Ensures w R (warnOfScope outcome) s t Q := by
  rcases outcome with (_ | _) | _ <;> exact h _

/-- Scopes in turn: an invariant of the scopes done so far that warnings do not matter to. -/
theorem ensures_scopes {collect : String → Attempt σ Call Answer Nat}
    (I : List String → σ → Session Call → Prop) {ps : List String}
    (hstep : ∀ done p, done ++ [p] <+: ps → ∀ s t, I done s t →
      Ensures w R (collect p).run s t fun _ s' t' =>
        ∀ warnings, I (done ++ [p]) s' { t' with warnings })
    (hstart : I [] s t) : Ensures w R (scopes collect ps).run s t fun _ => I ps := by
  suffices h : ∀ (rest done : List String) (tally : Tally) (s : σ) (t : Session Call),
      done ++ rest = ps → I done s t →
      Ensures w R (scopesFrom collect tally rest) s t fun _ => I ps from
    ensures_bind ((h ps [] .empty s t rfl hstart).mono fun _ _ _ hI => ensures_pure hI)
  intro rest
  induction rest with
  | nil =>
    rintro done tally s t rfl hI
    exact ensures_pure (by simpa using hI)
  | cons p rest ih =>
    rintro done tally s t hsplit hI
    have hsplit' : (done ++ [p]) ++ rest = ps := by simpa using hsplit
    refine ensures_bind ((hstep done p ⟨rest, hsplit'⟩ s t hI).mono fun outcome s' t' hI' => ?_)
    refine ensures_bind (ensures_warnOfScope fun warnings => ?_)
    exact ih (done ++ [p]) (tally.add outcome) _ _ hsplit' (hI' warnings)

/-- A single scope. -/
theorem ensures_scopes_singleton {collect : String → Attempt σ Call Answer Nat} {p : String}
    {Q : σ → Session Call → Prop}
    (h : Ensures w R (collect p).run s t fun _ s' t' => ∀ warnings, Q s' { t' with warnings }) :
    Ensures w R (scopes collect [p]).run s t fun _ => Q :=
  ensures_bind (ensures_bind (h.mono fun _ _ _ hQ =>
    ensures_bind (ensures_warnOfScope fun warnings => ensures_pure (ensures_pure (hQ warnings)))))

-- from here on work is reasoned about by the rules above, and no longer by running it
attribute [irreducible] Ensures

end Work

end CloudInventory
