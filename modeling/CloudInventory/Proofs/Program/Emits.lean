import CloudInventory.Proofs.Program.Ensures

/-!
What work hands out and what it says of it. `Emits w J P m V` says of work `m`, begun with a state
of which `J` holds: every record that it publishes has the property `P`, and `J` holds of the state
that it leaves, both even if it breaks off; and if it ends, then `V` holds of its result together
with the records. Counts add up along lists. Where work goes through scopes, the records of a scope
that has failed are in no count: these are the ones that are `lost`.
-/

namespace CloudInventory

variable {σ Call : Type} {Answer : Call → Type} {α β : Type}

namespace Session

/-- Since `t` just the records `new` have been published, and all of them have a property. -/
def Adds (P : Record → Prop) (t t' : Session Call) (new : List Record) : Prop :=
  t'.records = t.records ++ new ∧ ∀ r ∈ new, P r

variable {P : Record → Prop} {t t' t'' : Session Call}

theorem adds_nil (h : t'.records = t.records) : t.Adds P t' [] :=
  ⟨h.trans (List.append_nil _).symm, fun _ hr => absurd hr List.not_mem_nil⟩

theorem adds_singleton {r : Record} (hr : P r) (h : t'.records = t.records ++ [r]) :
    t.Adds P t' [r] :=
  ⟨h, fun _ hr' => List.mem_singleton.1 hr' ▸ hr⟩

theorem Adds.trans {front rest : List Record} (h : t.Adds P t' front) (h' : t'.Adds P t'' rest) :
    t.Adds P t'' (front ++ rest) := by
  refine ⟨by rw [h'.1, h.1, List.append_assoc], fun r hr => ?_⟩
  rcases List.mem_append.1 hr with hr | hr
  · exact h.2 r hr
  · exact h'.2 r hr

end Session

namespace Tally

/-- Without a success nothing has been counted. -/
def Sane (t : Tally) : Prop := t.succeeded = 0 → t.published = 0

theorem sane_empty : Tally.empty.Sane := fun _ => rfl

theorem Sane.add {t : Tally} (h : t.Sane) (outcome : Except CollectorError Nat) :
    (t.add outcome).Sane := by
  cases outcome with
  | ok n => exact fun hnone => absurd hnone (Nat.succ_ne_zero _)
  | error e => exact h

end Tally

namespace Work

/-- The number that work answers; none if it has failed. -/
def counted : Except CollectorError Nat → Nat
  | .ok n => n
  | .error _ => 0

theorem counted_finish {t : Tally} (h : t.Sane) : counted t.finish = t.published := by
  unfold Tally.finish
  split
  · split
    case isTrue hnone => exact (h hnone).symm
    case isFalse => rfl
  · rfl

/-- The records that work publishes have the property `P`, and if it ends, `V` holds of its result
together with them. It keeps `J` of its state. -/
def Emits (w : World Call Answer) (J : σ → Prop) (P : Record → Prop) (m : Work σ Call Answer α)
    (V : α → List Record → Prop) : Prop :=
  ∀ s t, J s → Ensures w (fun s' t' => J s' ∧ ∃ new, t.Adds P t' new) m s t fun a s' t' =>
    J s' ∧ ∃ new, t.Adds P t' new ∧ V a new

/-- A result that is the number of records. -/
def Counts (n : Nat) (new : List Record) : Prop := new.length = n

/-- A success is the number of records. -/
def CountsIfOk (r : Except CollectorError Nat) (new : List Record) : Prop :=
  ∀ n, r = .ok n → new.length = n

/-- A success is the number of records, and before a failure there are none. -/
def Tells (r : Except CollectorError Nat) (new : List Record) : Prop :=
  match r with
  | .ok n => new.length = n
  | .error _ => new = []

theorem Tells.countsIfOk {r : Except CollectorError Nat} {new : List Record} (h : Tells r new) :
    CountsIfOk r new := by
  rintro n rfl
  exact h

/-! ### Steps -/

section Steps

variable {w : World Call Answer} {J : σ → Prop} {P : Record → Prop}

theorem Emits.mono {m : Work σ Call Answer α} {V V' : α → List Record → Prop}
    (h : Emits w J P m V) (hV : ∀ a new, V a new → V' a new) : Emits w J P m V' := by
  intro s t hs
  refine (h s t hs).mono ?_
  rintro a s' t' ⟨hs', new, hadds, ha⟩
  exact ⟨hs', new, hadds, hV a new ha⟩

/-- In the middle of work: what follows starts from the records that are out already. -/
theorem Emits.ensures {m : Work σ Call Answer α} {V : α → List Record → Prop}
    (h : Emits w J P m V) {s : σ} {t t' : Session Call} {front : List Record} (hs : J s)
    (hfront : t.Adds P t' front) :
    Ensures w (fun s' t'' => J s' ∧ ∃ new, t.Adds P t'' new) m s t' fun a s' t'' =>
      J s' ∧ ∃ rest, t.Adds P t'' (front ++ rest) ∧ V a rest := by
  refine ((h s t' hs).weaken ?_).mono ?_
  · rintro s' t'' ⟨hs', rest, hrest⟩
    exact ⟨hs', front ++ rest, hfront.trans hrest⟩
  · rintro a s' t'' ⟨hs', rest, hrest, hV⟩
    exact ⟨hs', rest, hfront.trans hrest, hV⟩

theorem emits_pure {a : α} {V : α → List Record → Prop} (h : V a []) :
    Emits w J P (pure a) V := by
  intro s t hs
  exact ensures_pure ⟨hs, [], Session.adds_nil rfl, h⟩

theorem Emits.bind {m : Work σ Call Answer α} {f : α → Work σ Call Answer β}
    {V : α → List Record → Prop} {V' : β → List Record → Prop} (h : Emits w J P m V)
    (hf : ∀ a front, V a front → Emits w J P (f a) fun b rest => V' b (front ++ rest)) :
    Emits w J P (m >>= f) V' := by
  intro s t hs
  refine ensures_bind ((h s t hs).mono ?_)
  rintro a s' t' ⟨hs', front, hfront, hV⟩
  refine ((hf a front hV).ensures hs' hfront).mono ?_
  rintro b s'' t'' ⟨hs'', rest, hrest, hV'⟩
  exact ⟨hs'', front ++ rest, hrest, hV'⟩

/-- After work that publishes nothing. -/
theorem Emits.bind_silent {m : Work σ Call Answer α} {f : α → Work σ Call Answer β} {U : α → Prop}
    {V : β → List Record → Prop} (h : Emits w J P m fun a new => new = [] ∧ U a)
    (hf : ∀ a, U a → Emits w J P (f a) V) : Emits w J P (m >>= f) V := by
  refine h.bind ?_
  rintro a front ⟨rfl, ha⟩
  exact hf a ha

theorem emits_warn {m : Warning} {V : Unit → List Record → Prop} (h : V () []) :
    Emits w J P (warn m : Work σ Call Answer Unit) V := by
  intro s t hs
  exact ensures_warn ⟨hs, [], Session.adds_nil rfl, h⟩

theorem emits_warnThen {m : Warning} {f : Unit → Work σ Call Answer α}
    {V : α → List Record → Prop} (h : Emits w J P (f ()) V) : Emits w J P (warn m >>= f) V :=
  Emits.bind_silent (U := fun _ => True) (emits_warn ⟨rfl, trivial⟩) fun _ _ => h

theorem emits_skip (type : AssetType) (field : String) :
    Emits w J P (Emitter.skip type field : Work σ Call Answer Nat) Counts := by
  intro s t hs
  exact ensures_skip fun warnings => ⟨hs, [], Session.adds_nil rfl, rfl⟩

/-- One record is published, and counted. -/
theorem emits_emit {e : Emitter} {type : AssetType} {id : String} {patches : List Patch}
    (h : P (.compose e.stamp (Patch.typed type id e.space ++ patches))) :
    Emits w J P (do e.emit type id patches; return 1 : Work σ Call Answer Nat) Counts := by
  intro s t hs
  refine ensures_bind (ensures_publish (ensures_pure ?_))
  exact ⟨hs, [_], Session.adds_singleton h rfl, rfl⟩

end Steps

/-! ### Attempts -/

section Attempts

variable {w : World Call Answer} {J : σ → Prop} {P : Record → Prop}

theorem emits_ask {c : Call} {V : Except CollectorError (Answer c) → List Record → Prop}
    (hfail : ∀ e, V (.error e) []) (hok : ∀ k a, w.answer k c = .ok a → V (.ok a) []) :
    Emits w J P (ask c : Attempt σ Call Answer (Answer c)).run V := by
  intro s t hs
  refine ensures_ask ⟨hs, [], Session.adds_nil Session.ask_records, ?_⟩
  cases hanswer : (t.ask w c).1 with
  | error e => exact hfail e
  | ok a =>
    obtain ⟨k, -, -, hk⟩ := Session.heard_of_ask hanswer
    exact hok k a hk

theorem emits_checkpoint {V : Except CollectorError Unit → List Record → Prop} (h : ∀ r, V r []) :
    Emits w J P (checkpoint : Attempt σ Call Answer Unit).run V := by
  intro s t hs
  exact ensures_checkpoint fun r => ⟨hs, [], Session.adds_nil rfl, h r⟩

theorem Emits.lift {m : Work σ Call Answer α} {V : Except CollectorError α → List Record → Prop}
    (h : Emits w J P m fun a => V (.ok a)) :
    Emits w J P (monadLift m : Attempt σ Call Answer α).run V := by
  intro s t hs
  exact ensures_lift (h s t hs)

theorem emits_return {a : α} {V : Except CollectorError α → List Record → Prop} (h : V (.ok a) []) :
    Emits w J P (pure a : Attempt σ Call Answer α).run V :=
  emits_pure h

/-- An attempt that starts with a silent one. -/
theorem Emits.attempt {m : Attempt σ Call Answer α} {f : α → Attempt σ Call Answer β}
    {U : α → Prop} {V : Except CollectorError β → List Record → Prop}
    (h : Emits w J P m.run fun r new => new = [] ∧ ∀ a, r = .ok a → U a)
    (hfail : ∀ e, V (.error e) []) (hf : ∀ a, U a → Emits w J P (f a).run V) :
    Emits w J P (m >>= f).run V := by
  rw [ExceptT.run_bind]
  refine h.bind_silent fun r hr => ?_
  cases r with
  | ok a => exact hf a (hr a rfl)
  | error e => exact emits_pure (hfail e)

/-- A call, and work on its answer. -/
theorem emits_askThen {c : Call} {f : Answer c → Work σ Call Answer Nat}
    (hf : ∀ k a, w.answer k c = .ok a → Emits w J P (f a) Counts) :
    Emits w J P (do let a ← ask c; f a : Attempt σ Call Answer Nat).run Tells := by
  refine Emits.attempt (U := fun a => ∃ k, w.answer k c = .ok a) (emits_ask ?_ ?_) (fun _ => rfl) ?_
  · exact fun e => ⟨rfl, fun a ha => nomatch ha⟩
  · rintro k a hk
    exact ⟨rfl, fun a' ha' => ⟨k, Except.ok.inj ha' ▸ hk⟩⟩
  · rintro a ⟨k, hk⟩
    exact (hf k a hk).lift

end Attempts

/-! ### Going through lists -/

section Lists

variable {w : World Call Answer} {J : σ → Prop} {P : Record → Prop}

theorem emits_total {f : α → Work σ Call Answer Nat} :
    ∀ {as : List α}, (∀ a ∈ as, Emits w J P (f a) Counts) → Emits w J P (total f as) Counts
  | [], _ => emits_pure rfl
  | a :: as, h => by
    refine (h a List.mem_cons_self).bind fun n front hn => ?_
    refine (emits_total fun b hb => h b (List.mem_cons_of_mem _ hb)).bind fun m rest hm => ?_
    refine emits_pure ?_
    rw [Counts, List.append_nil, List.length_append, hn, hm]

/-- Of a failure it is not said how many records came before it. -/
theorem emits_totalAttempt {f : α → Attempt σ Call Answer Nat} :
    ∀ {as : List α}, (∀ a ∈ as, Emits w J P (f a).run CountsIfOk) →
      Emits w J P (totalAttempt f as).run CountsIfOk
  | [], _ => emits_return fun n hn => Except.ok.inj hn
  | a :: as, h => by
    rw [totalAttempt, ExceptT.run_bind]
    refine (h a List.mem_cons_self).bind fun r front hr => ?_
    cases r with
    | error e => exact emits_pure fun n hn => nomatch hn
    | ok n =>
      refine (emits_totalAttempt fun b hb => h b (List.mem_cons_of_mem _ hb)).bind
        fun r' rest hr' => ?_
      cases r' with
      | error e => exact emits_pure fun n hn => nomatch hn
      | ok m =>
        refine emits_pure fun k hk => ?_
        rw [List.append_nil, List.length_append, hr n rfl, hr' m rfl]
        exact Except.ok.inj hk

theorem emits_totalAttempt_singleton {f : α → Attempt σ Call Answer Nat} {a : α}
    (h : Emits w J P (f a).run Tells) : Emits w J P (totalAttempt f [a]).run Tells := by
  rw [totalAttempt, ExceptT.run_bind]
  refine h.bind fun r front hr => ?_
  cases r with
  | error e =>
    refine emits_pure ?_
    rwa [List.append_nil]
  | ok n =>
    refine emits_pure ?_
    rwa [List.append_nil]

end Lists

/-! ### Scopes -/

/-- The attempt at a scope, with a warning if it fails. -/
def attempted (collect : String → Attempt σ Call Answer Nat) (scope : String) :
    Work σ Call Answer (Except CollectorError Nat) := do
  let outcome ← (collect scope).run
  warnOfScope outcome
  return outcome

theorem scopesFrom_cons (collect : String → Attempt σ Call Answer Nat) (tally : Tally)
    (scope : String) (scopes : List String) :
    scopesFrom collect tally (scope :: scopes) =
      attempted collect scope >>= fun outcome => scopesFrom collect (tally.add outcome) scopes := by
  simp [attempted, scopesFrom]

/-- How many records go out in scopes that fail after all: no count tells of them. -/
def lost (w : World Call Answer) (collect : String → Attempt σ Call Answer Nat) :
    List String → σ → Session Call → Nat
  | [], _, _ => 0
  | scope :: scopes, s, t =>
    match (attempted collect scope s).run w t with
    | (.result (.ok _, s'), t') => lost w collect scopes s' t'
    | (.result (.error _, s'), t') =>
      (t'.records.length - t.records.length) + lost w collect scopes s' t'
    | (.brokenOff _, _) => 0

section Scopes

variable {w : World Call Answer} {J : σ → Prop} {P : Record → Prop}
  {collect : String → Attempt σ Call Answer Nat}

theorem Emits.attempted {scope : String} {V : Except CollectorError Nat → List Record → Prop}
    (h : Emits w J P (collect scope).run V) : Emits w J P (attempted collect scope) V := by
  refine h.bind fun outcome new hV => Emits.bind_silent (U := fun _ => True) ?_ fun _ _ =>
    emits_pure (by rwa [List.append_nil])
  intro s t hs
  exact ensures_warnOfScope fun warnings => ⟨hs, [], Session.adds_nil rfl, rfl, trivial⟩

/-- The count of the scopes that have succeeded and the lost records make up all records. -/
theorem ensures_scopesFrom : ∀ {ps : List String} {tally : Tally} {s : σ} {t : Session Call},
    (∀ p ∈ ps, Emits w J P (collect p).run CountsIfOk) → J s → tally.Sane →
    Ensures w (fun s' t' => J s' ∧ ∃ new, t.Adds P t' new) (scopesFrom collect tally ps) s t
      fun tally' s' t' => J s' ∧ tally'.Sane ∧ ∃ new, t.Adds P t' new ∧
        tally.published + new.length = tally'.published + lost w collect ps s t
  | [], tally, s, t, _, hs, hsane =>
    ensures_pure ⟨hs, hsane, [], Session.adds_nil rfl, rfl⟩
  | p :: ps, tally, s, t, h, hs, hsane => by
    rw [scopesFrom_cons]
    have hp := (h p List.mem_cons_self).attempted s t hs
    refine ensures_bind (hp.and_run.mono ?_)
    rintro outcome s₁ t₁ ⟨⟨hs₁, front, hfront, hcount⟩, hrun⟩
    have hrest := ensures_scopesFrom (t := t₁)
      (fun q hq => h q (List.mem_cons_of_mem _ hq)) hs₁ (hsane.add outcome)
    refine (hrest.weaken ?_).mono ?_
    · rintro s' t' ⟨hs', rest, hrest⟩
      exact ⟨hs', front ++ rest, hfront.trans hrest⟩
    · rintro tally' s₂ t₂ ⟨hs₂, hsane', rest, hrest, hsum⟩
      refine ⟨hs₂, hsane', front ++ rest, hfront.trans hrest, ?_⟩
      rw [lost, hrun, List.length_append]
      cases outcome with
      | ok n =>
        have hn : front.length = n := hcount n rfl
        simp only [Tally.add] at hsum ⊢
        omega
      | error e =>
        have hlength : t₁.records.length = t.records.length + front.length := by
          rw [hfront.1, List.length_append]
        simp only [Tally.add] at hsum ⊢
        omega

/-- Going through scopes: a success counts all records but the lost ones, and before a failure there
are none but lost ones. -/
theorem ensures_scopes_lost {ps : List String} {s : σ} {t : Session Call}
    (h : ∀ p ∈ ps, Emits w J P (collect p).run CountsIfOk) (hs : J s) :
    Ensures w (fun s' t' => J s' ∧ ∃ new, t.Adds P t' new) (scopes collect ps).run s t
      fun r s' t' =>
        J s' ∧ ∃ new, t.Adds P t' new ∧ new.length = counted r + lost w collect ps s t := by
  refine ensures_bind ((ensures_scopesFrom h hs Tally.sane_empty).mono ?_)
  rintro tally s' t' ⟨hs', hsane, new, hadds, hsum⟩
  refine ensures_pure ⟨hs', new, hadds, ?_⟩
  rw [counted_finish hsane]
  simpa [Tally.empty] using hsum

/-- Nothing is lost where scopes tell what they publish. -/
theorem lost_eq_zero : ∀ {ps : List String} {s : σ} {t : Session Call},
    (∀ p ∈ ps, Emits w J P (collect p).run Tells) → J s → lost w collect ps s t = 0
  | [], _, _, _, _ => rfl
  | p :: ps, s, t, h, hs => by
    have hp := (h p List.mem_cons_self).attempted s t hs
    have hrest : ∀ s' t', J s' → lost w collect ps s' t' = 0 := fun s' t' hs' =>
      lost_eq_zero (fun q hq => h q (List.mem_cons_of_mem _ hq)) hs'
    rw [lost]
    obtain ⟨left, t', hrun, -⟩ | ⟨_ | n, s', t', hrun, hs', new, hadds, hV⟩ := hp.ends
    · rw [hrun]
    · obtain rfl : new = [] := hV
      have hlength : t'.records = t.records := hadds.1.trans (List.append_nil _)
      simp [hrun, hlength, hrest s' t' hs']
    · rw [hrun]
      exact hrest s' t' hs'

theorem emits_scopes {ps : List String} (h : ∀ p ∈ ps, Emits w J P (collect p).run Tells) :
    Emits w J P (scopes collect ps).run Tells := by
  intro s t hs
  refine (ensures_scopes_lost (fun p hp => (h p hp).mono fun _ _ => Tells.countsIfOk) hs).mono ?_
  rintro r s' t' ⟨hs', new, hadds, hlength⟩
  refine ⟨hs', new, hadds, ?_⟩
  rw [lost_eq_zero h hs] at hlength
  cases r with
  | ok n => exact hlength
  | error e => exact List.eq_nil_of_length_eq_zero hlength

end Scopes

end Work

end CloudInventory
