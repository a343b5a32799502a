import CloudInventory.Proofs.Program.Ensures

/-!
Work that reads its state through a view only. A view tells something of a state. Work reads only
the view if it leaves it as it was, and does the same, step by step, from any two states of which
the view tells the same: it may write what it likes elsewhere, and nothing of that shows. What it
takes for the work to break off is noted along the way. There is one rule for each step that work
can be made of, and one for each way of going through a list.
-/

namespace CloudInventory

variable {σ τ Call : Type} {Answer : Call → Type} {α β γ δ : Type}

namespace Program

/-- Two programs do the same, step by step, and come to related results. They break off only if
`B` holds; of what they leave behind then nothing is said. -/
inductive Same (B : Prop) (V : α → β → Prop) :
    Program σ Call Answer α → Program σ Call Answer β → Prop
  | done {a : α} {b : β} (h : V a b) : Same B V (.done a) (.done b)
  | crash {left left' : σ} (h : B) : Same B V (.crash left) (.crash left')
  | call {c : Call} {next : Except CollectorError (Answer c) → Program σ Call Answer α}
      {next' : Except CollectorError (Answer c) → Program σ Call Answer β}
      (h : ∀ r, Same B V (next r) (next' r)) : Same B V (.call c next) (.call c next')
  | cancelled {next : Bool → Program σ Call Answer α} {next' : Bool → Program σ Call Answer β}
      (h : ∀ b, Same B V (next b) (next' b)) : Same B V (.cancelled next) (.cancelled next')
  | publish {r : Record} {p : Program σ Call Answer α} {q : Program σ Call Answer β}
      (h : Same B V p q) : Same B V (.publish r p) (.publish r q)
  | warn {m : Warning} {p : Program σ Call Answer α} {q : Program σ Call Answer β}
      (h : Same B V p q) : Same B V (.warn m p) (.warn m q)

variable {B : Prop} {V : α → β → Prop}

theorem Same.mono {V' : α → β → Prop} {p : Program σ Call Answer α} {q : Program σ Call Answer β}
    (h : Same B V p q) (hV : ∀ a b, V a b → V' a b) : Same B V' p q := by
  induction h with
  | done h => exact .done (hV _ _ h)
  | crash h => exact .crash h
  | call _ ih => exact .call ih
  | cancelled _ ih => exact .cancelled ih
  | publish _ ih => exact .publish ih
  | warn _ ih => exact .warn ih

theorem Same.bind {V' : γ → δ → Prop} {p : Program σ Call Answer α} {q : Program σ Call Answer β}
    (h : Same B V p q) {f : α → Program σ Call Answer γ} {f' : β → Program σ Call Answer δ}
    (hf : ∀ a b, V a b → Same B V' (f a) (f' b)) : Same B V' (p.bind f) (q.bind f') := by
  induction h with
  | done h => exact hf _ _ h
  | crash h => exact .crash h
  | call _ ih => exact .call ih
  | cancelled _ ih => exact .cancelled ih
  | publish _ ih => exact .publish ih
  | warn _ ih => exact .warn ih

/-- In any world, after anything that has happened, the same happens. -/
theorem Same.run {p : Program σ Call Answer α} {q : Program σ Call Answer β} (h : Same B V p q)
    (w : World Call Answer) : ∀ t : Session Call,
    Ending.Rel V (p.run w t).1 (q.run w t).1 ∧ (p.run w t).2 = (q.run w t).2 ∧
      ∀ left, (q.run w t).1 = .brokenOff left → B := by
  induction h with
  | done h => exact fun t => ⟨.result h, rfl, fun _ hbroken => by cases hbroken⟩
  | crash h => exact fun t => ⟨.brokenOff, rfl, fun _ _ => h⟩
  | call _ ih =>
    intro t
    rw [run_call, run_call]
    exact ih _ _
  | cancelled _ ih => exact fun t => ih _ t
  | publish _ ih => exact fun t => ih _
  | warn _ ih => exact fun t => ih _

end Program

namespace Work

/-- Work reads of its state only what a view tells, and leaves that as it was. It breaks off only
if `B` holds. -/
def ReadsOnly (B : Prop) (view : σ → τ) (m : Work σ Call Answer α) : Prop :=
  ∀ s s', view s = view s' →
    Program.Same B (fun p q => p.1 = q.1 ∧ view p.2 = view s ∧ view q.2 = view s) (m s) (m s')

variable {B : Prop} {view : σ → τ}

/-! ### Steps -/

section Steps

theorem readsOnly_pure (a : α) : ReadsOnly B view (pure a : Work σ Call Answer α) :=
  fun _ _ hview => .done ⟨rfl, rfl, hview.symm⟩

theorem ReadsOnly.bind {m : Work σ Call Answer α} (h : ReadsOnly B view m)
    {f : α → Work σ Call Answer β} (hf : ∀ a, ReadsOnly B view (f a)) :
    ReadsOnly B view (m >>= f) := by
  intro s s' hview
  refine (h s s' hview).bind ?_
  rintro ⟨a, s₁⟩ ⟨_, s₁'⟩ ⟨rfl, hleft, hright⟩
  exact (hf a s₁ s₁' (hleft.trans hright.symm)).mono fun p q ⟨hresult, hp, hq⟩ =>
    ⟨hresult, hp.trans hleft, hq.trans hleft⟩

theorem readsOnly_crash (h : B) : ReadsOnly B view (crash : Work σ Call Answer α) :=
  fun _ _ _ => .crash h

theorem readsOnly_publish (r : Record) :
    ReadsOnly B view (publish r : Work σ Call Answer Unit) :=
  fun _ _ hview => .publish (.done ⟨rfl, rfl, hview.symm⟩)

theorem readsOnly_warn (m : Warning) : ReadsOnly B view (warn m : Work σ Call Answer Unit) :=
  fun _ _ hview => .warn (.done ⟨rfl, rfl, hview.symm⟩)

theorem readsOnly_modify {f : σ → σ} (hf : ∀ s, view (f s) = view s) :
    ReadsOnly B view (modify f : Work σ Call Answer Unit) :=
  fun s s' hview => .done ⟨rfl, hf s, (hf s').trans hview.symm⟩

/-- What the state answers has to be told by the view. -/
theorem readsOnly_modifyGet {f : σ → α × σ}
    (hanswer : ∀ s s', view s = view s' → (f s).1 = (f s').1) (hf : ∀ s, view (f s).2 = view s) :
    ReadsOnly B view (modifyGet f : Work σ Call Answer α) :=
  fun s s' hview => .done ⟨hanswer s s' hview, hf s, (hf s').trans hview.symm⟩

theorem readsOnly_skip (type : AssetType) (field : String) :
    ReadsOnly B view (Emitter.skip type field : Work σ Call Answer Nat) :=
  (readsOnly_warn _).bind fun _ => readsOnly_pure 0

theorem readsOnly_emit (e : Emitter) (type : AssetType) (id : String) (patches : List Patch) :
    ReadsOnly B view (e.emit type id patches : Work σ Call Answer Unit) :=
  readsOnly_publish _

end Steps

/-! ### Attempts and lists -/

section Attempts

theorem readsOnly_ask (c : Call) :
    ReadsOnly B view (ask c : Attempt σ Call Answer (Answer c)).run :=
  fun _ _ hview => .call fun _ => .done ⟨rfl, rfl, hview.symm⟩

theorem ReadsOnly.attempt {m : Attempt σ Call Answer α} (h : ReadsOnly B view m.run)
    {f : α → Attempt σ Call Answer β} (hf : ∀ a, ReadsOnly B view (f a).run) :
    ReadsOnly B view (m >>= f).run := by
  rw [ExceptT.run_bind]
  refine h.bind fun r => ?_
  cases r with
  | ok a => exact hf a
  | error e => exact readsOnly_pure _

theorem ReadsOnly.lift {m : Work σ Call Answer α} (h : ReadsOnly B view m) :
    ReadsOnly B view (monadLift m : Attempt σ Call Answer α).run := by
  rw [run_lift]
  exact h.bind fun _ => readsOnly_pure _

theorem readsOnly_total {f : α → Work σ Call Answer Nat} (h : ∀ a, ReadsOnly B view (f a)) :
    ∀ as : List α, ReadsOnly B view (total f as)
  | [] => readsOnly_pure 0
  | a :: as => (h a).bind fun n => (readsOnly_total h as).bind fun m => readsOnly_pure (n + m)

theorem readsOnly_totalAttempt {f : α → Attempt σ Call Answer Nat}
    (h : ∀ a, ReadsOnly B view (f a).run) :
    ∀ as : List α, ReadsOnly B view (totalAttempt f as).run
  | [] => readsOnly_pure _
  | a :: as =>
    (h a).attempt fun _ => (readsOnly_totalAttempt h as).attempt fun _ => readsOnly_pure _

/-- A call, and work on every item of its answer. -/
theorem readsOnly_askTotal {c : Call} {items : Answer c → List α} {f : α → Work σ Call Answer Nat}
    (h : ∀ a, ReadsOnly B view (f a)) :
    ReadsOnly B view (do let a ← ask c; total f (items a) : Attempt σ Call Answer Nat).run :=
  (readsOnly_ask c).attempt fun _ => (readsOnly_total h _).lift

end Attempts

end Work

end CloudInventory
