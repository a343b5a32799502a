import CloudInventory.Proofs.Program.Cancellation

/-!
Work that is prompt: whenever shutdown is signalled, it publishes a first part of what it does in
the calm world. There is one rule for each step that work can be made of, and one for each way of
going through a list. An attempt that shutdown overtakes fails at once, and the scopes after it are
given up; only work that goes on without an answer has to lag behind.
-/

namespace CloudInventory

variable {σ Call : Type} {Answer : Call → Type} {α β γ δ : Type}

/-! ### Work -/

namespace Work

/-- Once shutdown has been signalled, work publishes nothing from any state. -/
def Idle (S : α → Prop) (m : Work σ Call Answer α) : Prop :=
  ∀ s, Program.Idle (fun p => S p.1) (m s)

/-- From any two states, work lags behind other work. -/
def Lags (V : α → β → Prop) (S : α → Prop) (m : Work σ Call Answer α)
    (m' : Work σ Call Answer β) : Prop :=
  ∀ s s', Program.Lags (fun p q => V p.1 q.1) (fun p => S p.1) (m s) (m' s')

/-- Work yields to shutdown from any state, and if it begins after the signal, it lags behind
itself. -/
structure Prompt (V : α → α → Prop) (S : α → Prop) (m : Work σ Call Answer α) : Prop where
  yields : ∀ s, Program.Yields (fun p q => V p.1 q.1) (fun p => S p.1) (m s)
  lags : Lags V S m m

/-- Prompt work, whatever holds of its result. -/
abbrev PromptAnyhow (m : Work σ Call Answer α) : Prop := Prompt (fun _ _ => True) (fun _ => True) m

/-- Whenever shutdown is signalled, prompt work publishes a first part of what it does in the calm
world. -/
theorem Prompt.run {V : α → α → Prop} {S : α → Prop} {m : Work σ Call Answer α}
    (h : Prompt V S m) (w : World Call Answer) (s : σ) (cancelled : Bool) :
    Behind ((m s).run w (.start cancelled)) ((m s).run w.calm (.start false)) := by
  cases cancelled with
  | true => exact (h.lags s s).run rfl rfl
  | false => exact (h.yields s).run rfl

section Steps

variable {V : α → α → Prop} {S : α → Prop} {V' : β → β → Prop} {S' : β → Prop}

theorem Idle.bind {m : Work σ Call Answer α} (h : Idle S m) {f : α → Work σ Call Answer β}
    (hf : ∀ a, S a → Idle S' (f a)) : Idle S' (m >>= f) :=
  fun s => (h s).bind fun p hp => hf p.1 hp p.2

theorem Idle.mono {S₁ : α → Prop} {m : Work σ Call Answer α} (h : Idle S m)
    (hS : ∀ a, S a → S₁ a) : Idle S₁ m :=
  fun s => (h s).mono fun (p : α × σ) => hS p.1

theorem idle_pure {a : α} (h : S a) : Idle S (pure a : Work σ Call Answer α) :=
  fun _ => .done h

theorem idle_warn (m : Warning) : Idle (fun _ => True) (warn m : Work σ Call Answer Unit) :=
  fun _ => .warn (.done trivial)

theorem Lags.bind {W : α → γ → Prop} {W' : β → δ → Prop} {m : Work σ Call Answer α}
    {m' : Work σ Call Answer γ} (h : Lags W S m m') {f : α → Work σ Call Answer β}
    {f' : γ → Work σ Call Answer δ} (hf : ∀ a b, W a b → Lags W' S' (f a) (f' b))
    (hover : ∀ a, S a → Idle S' (f a)) : Lags W' S' (m >>= f) (m' >>= f') :=
  fun s s' => (h s s').bind (fun p q hW => hf p.1 q.1 hW p.2 q.2) fun p hp => hover p.1 hp p.2

theorem lags_pure {W : α → β → Prop} {a : α} {b : β} (h : W a b) :
    Lags W S (pure a : Work σ Call Answer α) (pure b) :=
  fun _ _ => .done h

theorem lags_publish {r r' : Record} {S : Unit → Prop} (h : r.bare = r'.bare) :
    Lags Eq S (publish r : Work σ Call Answer Unit) (publish r') :=
  fun _ _ => .publish h (.done rfl)

theorem Idle.lags {W : α → β → Prop} {m : Work σ Call Answer α} (h : Idle S m)
    (m' : Work σ Call Answer β) : Lags W S m m' :=
  fun s _ => .idle (h s)

theorem Lags.mono {W W' : α → β → Prop} {S₁ : α → Prop} {m : Work σ Call Answer α}
    {m' : Work σ Call Answer β} (h : Lags W S m m') (hW : ∀ a b, W a b → W' a b)
    (hS : ∀ a, S a → S₁ a) : Lags W' S₁ m m' :=
  fun s s' => (h s s').mono (fun (p : α × σ) (q : β × σ) => hW p.1 q.1) fun p => hS p.1

theorem Prompt.mono {V₁ : α → α → Prop} {S₁ : α → Prop} {m : Work σ Call Answer α}
    (h : Prompt V S m) (hV : ∀ a b, V a b → V₁ a b) (hS : ∀ a, S a → S₁ a) : Prompt V₁ S₁ m :=
  ⟨fun s => (h.yields s).mono (fun (p q : α × σ) => hV p.1 q.1) fun p => hS p.1,
    h.lags.mono hV hS⟩

theorem Prompt.anyhow {m : Work σ Call Answer α} (h : Prompt V S m) : PromptAnyhow m :=
  h.mono (fun _ _ _ => trivial) fun _ _ => trivial

theorem Prompt.bind {m : Work σ Call Answer α} (h : Prompt V S m)
    {f : α → Work σ Call Answer β} (hgo : ∀ a, Prompt V' S' (f a))
    (hf : ∀ a b, V a b → Lags V' S' (f a) (f b)) (hover : ∀ a, S a → Idle S' (f a)) :
    Prompt V' S' (m >>= f) :=
  ⟨fun s => (h.yields s).bind (fun p => (hgo p.1).yields p.2)
      (fun p q hV => hf p.1 q.1 hV p.2 q.2) fun p hp => hover p.1 hp p.2,
    h.lags.bind hf hover⟩

/-- After work whose result is the same in the calm world. -/
theorem Prompt.seq {m : Work σ Call Answer α} (h : Prompt Eq S m)
    {f : α → Work σ Call Answer β} (hf : ∀ a, Prompt V' S' (f a))
    (hover : ∀ a, S a → Idle S' (f a)) : Prompt V' S' (m >>= f) :=
  h.bind hf (fun a _ hab => hab ▸ (hf a).lags) hover

theorem prompt_pure {a : α} (h : V a a) : Prompt V S (pure a : Work σ Call Answer α) :=
  ⟨fun _ => .done _, lags_pure h⟩

theorem prompt_publish (r : Record) {S : Unit → Prop} :
    Prompt Eq S (publish r : Work σ Call Answer Unit) :=
  ⟨fun _ => .publish (.done _), lags_publish rfl⟩

theorem prompt_crash : Prompt V S (crash : Work σ Call Answer α) :=
  ⟨fun _ => .crash _, fun _ _ => .crash⟩

theorem Silent.lags {o : Observer Call} {W : α → β → Prop} {m : Work σ Call Answer α}
    {m' : Work σ Call Answer β} (h : Silent o m) (h' : Silent o m') (hW : ∀ a b, W a b) :
    Lags W S m m' :=
  fun s s' => (h s).lags (h' s') fun p q => hW p.1 q.1

theorem Idle.lags_silent {o : Observer Call} {m : Work σ Call Answer α} (h : Idle S m)
    {m' : Work σ Call Answer β} (h' : Silent o m') {S₁ : α → Prop} :
    Lags (fun a _ => S a) S₁ m m' :=
  fun s s' => (h' s').lags_of_idle (h s)

theorem Lags.warnLeft {W : α → β → Prop} {m : Work σ Call Answer α} {m' : Work σ Call Answer β}
    (h : Lags W S m m') (warning : Warning) : Lags W S (do warn warning; m) m' :=
  fun s s' => .warnLeft (h s s')

theorem Lags.warnRight {W : α → β → Prop} {m : Work σ Call Answer α} {m' : Work σ Call Answer β}
    (h : Lags W S m m') (warning : Warning) : Lags W S m (do warn warning; m') :=
  fun s s' => .warnRight (h s s')

theorem Silent.prompt {o : Observer Call} {m : Work σ Call Answer α} (h : Silent o m)
    (hV : ∀ a b, V a b) : Prompt V S m :=
  ⟨fun s => (h s).yields fun p q => hV p.1 q.1, h.lags h hV⟩

/-- What is found out silently may come out differently once shutdown has been signalled. -/
theorem Silent.lagsThen {o : Observer Call} {m : Work σ Call Answer α} {m' : Work σ Call Answer γ}
    (h : Silent o m) (h' : Silent o m') {f : α → Work σ Call Answer β}
    {f' : γ → Work σ Call Answer β} (hf : ∀ a b, Lags V' S' (f a) (f' b)) :
    Lags V' S' (m >>= f) (m' >>= f') :=
  Lags.bind (S := fun _ => False) (h.lags h' (W := fun _ _ => True) fun _ _ => trivial)
    (fun a b _ => hf a b) fun _ => False.elim

/-- What follows on silent work and does not depend on its result, or only in what is left out of
account. -/
theorem Silent.promptThen {o : Observer Call} {m : Work σ Call Answer α} (h : Silent o m)
    {f : α → Work σ Call Answer β} (hf : ∀ a, Prompt V' S' (f a))
    (hlags : ∀ a a', Lags V' S' (f a) (f a')) : Prompt V' S' (m >>= f) :=
  Prompt.bind (S := fun _ => False) (h.prompt (V := fun _ _ => True) fun _ _ => trivial) hf
    (fun a a' _ => hlags a a') fun _ => False.elim

theorem prompt_warn (m : Warning) {S : Unit → Prop} :
    Prompt Eq S (warn m : Work σ Call Answer Unit) :=
  Silent.prompt (o := Observer.deaf) (silent_warn m) fun _ _ => rfl

theorem prompt_skip (type : AssetType) (field : String) :
    Prompt Eq (fun _ => False) (Emitter.skip type field : Work σ Call Answer Nat) :=
  Prompt.seq (S := fun _ => False) (prompt_warn _) (fun _ => prompt_pure rfl) fun _ => False.elim

/-- Descriptions that differ in edges only. -/
theorem lags_emit (e : Emitter) (type : AssetType) (id : String) {ps ps' : List Patch}
    (h : (ps.filter fun p => !p.setsEdges) = ps'.filter fun p => !p.setsEdges) :
    Lags Eq (fun _ => False)
      (do e.emit type id ps; return 1 : Work σ Call Answer Nat)
      (do e.emit type id ps'; return 1) := by
  refine Lags.bind (S := fun _ => False) (lags_publish ?_) (fun _ _ _ => lags_pure rfl)
    fun _ => False.elim
  rw [Record.bare_compose, Record.bare_compose, List.filter_append, List.filter_append, h]

theorem prompt_emit (e : Emitter) (type : AssetType) (id : String) (ps : List Patch) :
    Prompt Eq (fun _ => False) (do e.emit type id ps; return 1 : Work σ Call Answer Nat) :=
  Prompt.seq (S := fun _ => False) (prompt_publish _) (fun _ => prompt_pure rfl) fun _ => False.elim

end Steps

/-! ### Attempts -/

/-- A prompt attempt that fails if shutdown overtakes it. -/
abbrev Stops (m : Attempt σ Call Answer α) : Prop :=
  Prompt Eq (fun r => r = .error .cancelled) m.run

/-- An attempt that fails once shutdown has been signalled. -/
abbrev Refuses (m : Attempt σ Call Answer α) : Prop := Idle (fun r => r = .error .cancelled) m.run

section Attempts

variable {c : Call}

theorem refuses_ask : Refuses (ask c : Attempt σ Call Answer (Answer c)) :=
  fun _ => .call (.done rfl)

theorem refuses_checkpoint : Refuses (checkpoint : Attempt σ Call Answer Unit) :=
  fun _ => .cancelled (.done rfl)

theorem Refuses.attempt {m : Attempt σ Call Answer α} (h : Refuses m)
    (f : α → Attempt σ Call Answer β) : Refuses (m >>= f) := by
  show Idle _ (m >>= f).run
  rw [ExceptT.run_bind]
  refine Idle.bind h fun r hr => ?_
  subst hr
  exact idle_pure rfl

theorem stops_ask : Stops (ask c : Attempt σ Call Answer (Answer c)) :=
  ⟨fun _ => .call (fun _ => .done _) (fun _ => .done rfl) fun _ => .idle (.done rfl),
    refuses_ask.lags _⟩

/-- A call whose failure does not end the work. -/
theorem prompt_ask : Prompt (fun r r' => r = .error .cancelled ∨ r = r') (fun _ => False)
    (ask c : Attempt σ Call Answer (Answer c)).run :=
  ⟨fun _ => .call (fun _ => .done _) (fun _ => .done (.inr rfl)) fun _ => .done (.inl rfl),
    fun _ _ => .callLeft (.callRight fun _ => .done (.inl rfl))⟩

theorem stops_checkpoint : Stops (checkpoint : Attempt σ Call Answer Unit) :=
  ⟨fun _ => .cancelled (.done _), refuses_checkpoint.lags _⟩

theorem stops_return {a : α} : Stops (pure a : Attempt σ Call Answer α) :=
  prompt_pure rfl

/-- What follows on an attempt that stops may lag behind. -/
theorem Stops.then {m : Attempt σ Call Answer α} (h : Stops m)
    {f : α → Attempt σ Call Answer β} {V : Except CollectorError β → Except CollectorError β → Prop}
    {S : Except CollectorError β → Prop} (hf : ∀ a, Prompt V S (f a).run)
    (hV : ∀ e, V (.error e) (.error e)) (hS : S (.error .cancelled)) :
    Prompt V S (m >>= f).run := by
  rw [ExceptT.run_bind]
  refine Prompt.seq h (fun r => ?_) fun r hr => ?_
  · cases r with
    | ok a => exact hf a
    | error e => exact prompt_pure (hV e)
  · subst hr
    exact idle_pure hS

theorem Stops.attempt {m : Attempt σ Call Answer α} (h : Stops m)
    {f : α → Attempt σ Call Answer β} (hf : ∀ a, Stops (f a)) : Stops (m >>= f) :=
  h.then hf (fun _ => rfl) rfl

theorem Prompt.stops {m : Work σ Call Answer α} (h : Prompt Eq (fun _ => False) m) :
    Stops (monadLift m : Attempt σ Call Answer α) := by
  show Prompt _ _ (monadLift m : Attempt σ Call Answer α).run
  rw [run_lift]
  exact h.seq (fun a => prompt_pure rfl) fun _ => False.elim

end Attempts

/-! ### Going through lists -/

section Lists

theorem prompt_total {f : α → Work σ Call Answer Nat}
    (h : ∀ a, Prompt Eq (fun _ => False) (f a)) :
    ∀ as : List α, Prompt Eq (fun _ => False) (total f as)
  | [] => prompt_pure rfl
  | a :: as => (h a).seq (fun _ => (prompt_total h as).seq (fun _ => prompt_pure rfl)
      fun _ => False.elim) fun _ => False.elim

/-- Work on the first few of some items lags behind work on all of them. -/
theorem lags_total {f : α → Work σ Call Answer Nat} {f' : β → Work σ Call Answer Nat} :
    ∀ {as : List α} {bs rest : List β},
      List.Forall₂ (fun a b => Lags Eq (fun _ => False) (f a) (f' b)) as bs →
      Lags (fun _ _ => True) (fun _ => True) (total f as) (total f' (bs ++ rest))
  | _, _, _, .nil => (idle_pure trivial).lags _
  | _, _, _, .cons h hrest =>
    h.bind (fun _ _ _ => (lags_total hrest).bind (fun _ _ _ => lags_pure trivial)
      fun _ _ => idle_pure trivial) fun _ => False.elim

theorem lags_lift_total {f : α → Work σ Call Answer Nat} {f' : β → Work σ Call Answer Nat}
    {as : List α} {bs rest : List β}
    (h : List.Forall₂ (fun a b => Lags Eq (fun _ => False) (f a) (f' b)) as bs) :
    Lags (fun _ _ => True) (fun _ => True) (monadLift (total f as) : Attempt σ Call Answer Nat).run
      (monadLift (total f' (bs ++ rest)) : Attempt σ Call Answer Nat).run := by
  rw [run_lift, run_lift]
  exact (lags_total h).bind (fun _ _ _ => lags_pure trivial) fun _ _ => idle_pure trivial

theorem stops_askTotal {c : Call} {items : Answer c → List α} {f : α → Work σ Call Answer Nat}
    (h : ∀ a, Prompt Eq (fun _ => False) (f a)) :
    Stops (do let a ← ask c; total f (items a) : Attempt σ Call Answer Nat) :=
  stops_ask.attempt fun _ => (prompt_total h _).stops

theorem stops_totalAttempt {f : α → Attempt σ Call Answer Nat} (h : ∀ a, Stops (f a)) :
    ∀ as : List α, Stops (totalAttempt f as)
  | [] => stops_return
  | a :: as => (h a).attempt fun _ => (stops_totalAttempt h as).attempt fun _ => stops_return

theorem idle_totalAttempt {f : α → Attempt σ Call Answer Nat} (h : ∀ a, Refuses (f a))
    (as : List α) : Idle (fun _ => True) (totalAttempt f as).run := by
  cases as with
  | nil => exact idle_pure trivial
  | cons a as => exact Idle.mono ((h a).attempt _) fun _ _ => trivial

/-- Once shutdown has been signalled, scopes that publish nothing then are gone through idly. -/
theorem idle_scopesFrom {collect : String → Attempt σ Call Answer Nat}
    (h : ∀ p, Idle (fun _ => True) (collect p).run) :
    ∀ (ps : List String) (tally : Tally), Idle (fun _ => True) (scopesFrom collect tally ps)
  | [], _ => idle_pure trivial
  | p :: ps, tally => by
    refine (h p).bind fun outcome _ => Idle.bind (S := fun _ => True) ?_ fun _ _ =>
      idle_scopesFrom h ps _
    rcases outcome with (_ | _) | _
    all_goals first | exact idle_pure trivial | exact idle_warn _

/-- After a scope that shutdown overtakes nothing is published. -/
theorem prompt_scopes {collect : String → Attempt σ Call Answer Nat}
    (hstops : ∀ p, Stops (collect p)) (hidle : ∀ p, Idle (fun _ => True) (collect p).run)
    (ps : List String) : Prompt Eq (fun _ => True) (scopes collect ps).run := by
  suffices hfrom : ∀ (ps : List String) (tally : Tally),
      Prompt Eq (fun _ => True) (scopesFrom collect tally ps) from
    (hfrom ps .empty).seq (fun _ => prompt_pure rfl) fun _ _ => idle_pure trivial
  intro ps
  induction ps with
  | nil => exact fun tally => prompt_pure rfl
  | cons p ps ih =>
    intro tally
    refine (hstops p).seq (fun outcome => ?_) fun outcome houtcome => ?_
    · refine Prompt.seq (S := fun _ => True) ?_ (fun _ => ih _) fun _ _ =>
        idle_scopesFrom hidle ps _
      rcases outcome with (_ | _) | _
      all_goals first | exact prompt_pure rfl | exact prompt_warn _
    · subst houtcome
      exact Idle.bind (S := fun _ => True) (idle_pure trivial) fun _ _ =>
        idle_scopesFrom hidle ps _

end Lists

end Work

end CloudInventory
