import CloudInventory.Proofs.Program.Ensures

/-!
What an observer sees of work. An observer hears some of the calls with their answers, and sees
something of each record; other calls, warnings and the state pass it by. Two programs are alike to
an observer if it sees the same of them step by step, whatever the calls are answered that it does
not hear. So in any two worlds that answer alike what it hears, runs of the two give like results
and the same view of the records: this is the main statement. Work is steady if it is alike to
itself from any two states.
-/

namespace CloudInventory

variable {σ Call : Type} {Answer : Call → Type} {α β γ δ : Type}

/-! ### Exchanges -/

/-- A call and what it has been answered. -/
abbrev Exchange (Call : Type) (Answer : Call → Type) :=
  (c : Call) × Except CollectorError (Answer c)

/-- Wherever one call has the same place in both, it has been answered the same. -/
def AnsweredAlike (xs ys : List (Exchange Call Answer)) : Prop :=
  ∀ (k : Nat) (c : Call) (a b : Except CollectorError (Answer c)),
    xs[k]? = some ⟨c, a⟩ → ys[k]? = some ⟨c, b⟩ → a = b

theorem AnsweredAlike.of_cons {c : Call} {a b : Except CollectorError (Answer c)}
    {xs ys : List (Exchange Call Answer)} (h : AnsweredAlike (⟨c, a⟩ :: xs) (⟨c, b⟩ :: ys)) :
    a = b ∧ AnsweredAlike xs ys :=
  ⟨h 0 c a b rfl rfl, fun k => h (k + 1)⟩

/-- The calls of a program in a world and what each has been answered. A call that is not begun
after shutdown is one of them, and answered by its failure. -/
def Program.exchanges (w : World Call Answer) :
    Program σ Call Answer α → Session Call → List (Exchange Call Answer)
  | done _, _ => []
  | call c next, t => ⟨c, (t.ask w c).1⟩ :: exchanges w (next (t.ask w c).1) (t.ask w c).2
  | cancelled next, t => exchanges w (next t.cancelled) t
  | publish r next, t => exchanges w next { t with records := t.records ++ [r] }
  | warn m next, t => exchanges w next { t with warnings := t.warnings ++ [m] }
  | crash _, _ => []

/-! ### Observers -/

/-- Someone who sees something of what work does. -/
structure Observer (Call : Type) where
  /-- The calls whose answers it hears. -/
  hears : Call → Bool
  /-- What it sees of a record. -/
  view : Record → Record

namespace Observer

variable (o : Observer Call)

/-- What an observer hears of a program in a world. -/
def heard (w : World Call Answer) (p : Program σ Call Answer α) (t : Session Call) :
    List (Exchange Call Answer) :=
  (p.exchanges w t).filter fun e => o.hears e.1

/-- An observer sees the same of two programs, step by step, and related results. -/
inductive Alike (V : α → β → Prop) : Program σ Call Answer α → Program σ Call Answer β → Prop
  | done {a : α} {b : β} (h : V a b) : Alike V (.done a) (.done b)
  | crash {left left' : σ} : Alike V (.crash left) (.crash left')
  | publish {r r' : Record} {p : Program σ Call Answer α} {q : Program σ Call Answer β}
      (hview : o.view r = o.view r') (h : Alike V p q) : Alike V (.publish r p) (.publish r' q)
  | call {c : Call} {next : Except CollectorError (Answer c) → Program σ Call Answer α}
      {next' : Except CollectorError (Answer c) → Program σ Call Answer β}
      (hhears : o.hears c = true) (h : ∀ r, Alike V (next r) (next' r)) :
      Alike V (.call c next) (.call c next')
  | callLeft {c : Call} {next : Except CollectorError (Answer c) → Program σ Call Answer α}
      {q : Program σ Call Answer β} (hdeaf : o.hears c = false) (h : ∀ r, Alike V (next r) q) :
      Alike V (.call c next) q
  | callRight {c : Call} {p : Program σ Call Answer α}
      {next : Except CollectorError (Answer c) → Program σ Call Answer β}
      (hdeaf : o.hears c = false) (h : ∀ r, Alike V p (next r)) : Alike V p (.call c next)
  | warnLeft {m : Warning} {p : Program σ Call Answer α} {q : Program σ Call Answer β}
      (h : Alike V p q) : Alike V (.warn m p) q
  | warnRight {m : Warning} {p : Program σ Call Answer α} {q : Program σ Call Answer β}
      (h : Alike V p q) : Alike V p (.warn m q)

/-- A program of which an observer sees nothing, and that ends. -/
inductive Silent : Program σ Call Answer α → Prop
  | done (a : α) : Silent (.done a)
  | call {c : Call} {next : Except CollectorError (Answer c) → Program σ Call Answer α}
      (hdeaf : o.hears c = false) (h : ∀ r, Silent (next r)) : Silent (.call c next)
  | warn {m : Warning} {p : Program σ Call Answer α} (h : Silent p) : Silent (.warn m p)

variable {o}

theorem heard_call {w : World Call Answer} {c : Call}
    {next : Except CollectorError (Answer c) → Program σ Call Answer α} {t : Session Call}
    (h : o.hears c = true) : o.heard w (.call c next) t =
      ⟨c, (t.ask w c).1⟩ :: o.heard w (next (t.ask w c).1) (t.ask w c).2 :=
  List.filter_cons_of_pos h

theorem heard_call_of_deaf {w : World Call Answer} {c : Call}
    {next : Except CollectorError (Answer c) → Program σ Call Answer α} {t : Session Call}
    (h : o.hears c = false) :
    o.heard w (.call c next) t = o.heard w (next (t.ask w c).1) (t.ask w c).2 :=
  List.filter_cons_of_neg (by simp [h])

/-- Two programs that are alike, in worlds that answer alike what is heard, come to related results
and to the same view of the records. -/
theorem Alike.run {V : α → β → Prop} {p : Program σ Call Answer α} {q : Program σ Call Answer β}
    (h : o.Alike V p q) {w w' : World Call Answer} : ∀ {t t' : Session Call},
    AnsweredAlike (o.heard w p t) (o.heard w' q t') →
    t.records.map o.view = t'.records.map o.view →
    Ending.Rel V (p.run w t).1 (q.run w' t').1 ∧
      (p.run w t).2.records.map o.view = (q.run w' t').2.records.map o.view := by
  induction h with
  | done hV => exact fun _ hrecords => ⟨.result hV, hrecords⟩
  | crash => exact fun _ hrecords => ⟨.brokenOff, hrecords⟩
  | publish hview _ ih =>
    intro t t' hheard hrecords
    refine ih hheard ?_
    rw [List.map_append, List.map_append, hrecords, List.map_singleton, List.map_singleton, hview]
  | call hhears _ ih =>
    intro t t' hheard hrecords
    rw [heard_call hhears, heard_call hhears] at hheard
    -- what has been heard is the same, so both go on with one answer
    obtain ⟨hsame, hrest⟩ := hheard.of_cons
    rw [Program.run_call, Program.run_call, ← hsame]
    refine ih _ (hsame ▸ hrest) ?_
    rw [Session.ask_records, Session.ask_records, hrecords]
  | callLeft hdeaf _ ih =>
    intro t t' hheard hrecords
    rw [heard_call_of_deaf hdeaf] at hheard
    rw [Program.run_call]
    exact ih _ hheard (by rw [Session.ask_records, hrecords])
  | callRight hdeaf _ ih =>
    intro t t' hheard hrecords
    rw [heard_call_of_deaf hdeaf] at hheard
    rw [Program.run_call]
    exact ih _ hheard (by rw [Session.ask_records, hrecords])
  | warnLeft _ ih => exact fun hheard hrecords => ih hheard hrecords
  | warnRight _ ih => exact fun hheard hrecords => ih hheard hrecords

/-- As long as shutdown is not signalled, each call has been answered by what the world says. -/
theorem answer_of_mem_exchanges {w : World Call Answer} (hcalm : ∀ k c, w.signal k c = none)
    {e : Exchange Call Answer} : ∀ {p : Program σ Call Answer α} {t : Session Call},
    e ∈ p.exchanges w t → t.cancelled = false → ∃ k, e.2 = w.answer k e.1
  | .done _, _, he, _ => absurd he List.not_mem_nil
  | .crash _, _, he, _ => absurd he List.not_mem_nil
  | .cancelled next, t, he, hgo => answer_of_mem_exchanges hcalm (p := next t.cancelled) he hgo
  | .publish _ next, _, he, hgo => answer_of_mem_exchanges hcalm (p := next) he hgo
  | .warn _ next, _, he, hgo => answer_of_mem_exchanges hcalm (p := next) he hgo
  | .call c next, t, he, hgo => by
    rw [Program.exchanges, Session.ask_of_calm hcalm hgo] at he
    rcases List.mem_cons.1 he with rfl | he
    · exact ⟨_, rfl⟩
    · exact answer_of_mem_exchanges hcalm he hgo

/-- Worlds without shutdown that answer alike whatever an observer hears do so in any two runs. -/
theorem answeredAlike_of_calm {w w' : World Call Answer} (hcalm : ∀ k c, w.signal k c = none)
    (hcalm' : ∀ k c, w'.signal k c = none)
    (hsame : ∀ k k' c, o.hears c = true → w.answer k c = w'.answer k' c)
    (p : Program σ Call Answer α) (q : Program σ Call Answer β) :
    AnsweredAlike (o.heard w p (.start false)) (o.heard w' q (.start false)) := by
  intro j c a b ha hb
  obtain ⟨ha, hhears⟩ := List.mem_filter.1 (List.mem_of_getElem? ha)
  obtain ⟨hb, -⟩ := List.mem_filter.1 (List.mem_of_getElem? hb)
  obtain ⟨k, hk⟩ := answer_of_mem_exchanges hcalm ha rfl
  obtain ⟨k', hk'⟩ := answer_of_mem_exchanges hcalm' hb rfl
  exact hk.trans ((hsame k k' c hhears).trans hk'.symm)

theorem Alike.bind {V : α → β → Prop} {V' : γ → δ → Prop} {p : Program σ Call Answer α}
    {q : Program σ Call Answer β} (h : o.Alike V p q) {f : α → Program σ Call Answer γ}
    {f' : β → Program σ Call Answer δ} (hf : ∀ a b, V a b → o.Alike V' (f a) (f' b)) :
    o.Alike V' (p.bind f) (q.bind f') := by
  induction h with
  | done hV => exact hf _ _ hV
  | crash => exact .crash
  | publish hview _ ih => exact .publish hview ih
  | call hhears _ ih => exact .call hhears ih
  | callLeft hdeaf _ ih => exact .callLeft hdeaf ih
  | callRight hdeaf _ ih => exact .callRight hdeaf ih
  | warnLeft _ ih => exact .warnLeft ih
  | warnRight _ ih => exact .warnRight ih

theorem Silent.bind {p : Program σ Call Answer α} (h : o.Silent p) {f : α → Program σ Call Answer β}
    (hf : ∀ a, o.Silent (f a)) : o.Silent (p.bind f) := by
  induction h with
  | done a => exact hf a
  | call hdeaf _ ih => exact .call hdeaf ih
  | warn _ ih => exact .warn ih

/-- Silent programs are alike, whatever they do. -/
theorem Silent.alike {V : α → β → Prop} {p : Program σ Call Answer α} {q : Program σ Call Answer β}
    (hp : o.Silent p) (hq : o.Silent q) (hV : ∀ a b, V a b) : o.Alike V p q := by
  -- the left program goes on to its end, and then the right one
  induction hp with
  | done a =>
    induction hq with
    | done b => exact .done (hV a b)
    | call hdeaf _ ih => exact .callRight hdeaf ih
    | warn _ ih => exact .warnRight ih
  | call hdeaf _ ih => exact .callLeft hdeaf ih
  | warn _ ih => exact .warnLeft ih

end Observer

/-! ### Work -/

namespace Work

/-- From any two states, an observer sees the same of two pieces of work, and related results. -/
def Alike (o : Observer Call) (V : α → β → Prop) (m : Work σ Call Answer α)
    (m' : Work σ Call Answer β) : Prop :=
  ∀ s s', o.Alike (fun p q => V p.1 q.1) (m s) (m' s')

/-- From any two states, an observer sees the same of work. -/
def Steady (o : Observer Call) (m : Work σ Call Answer α) : Prop := Alike o Eq m m

/-- From no state an observer sees anything of work, and it ends. -/
def Silent (o : Observer Call) (m : Work σ Call Answer α) : Prop := ∀ s, o.Silent (m s)

section Steps

variable {o : Observer Call}

theorem Alike.bind {V : α → β → Prop} {V' : γ → δ → Prop} {m : Work σ Call Answer α}
    {m' : Work σ Call Answer β} (h : Alike o V m m') {f : α → Work σ Call Answer γ}
    {f' : β → Work σ Call Answer δ} (hf : ∀ a b, V a b → Alike o V' (f a) (f' b)) :
    Alike o V' (m >>= f) (m' >>= f') :=
  fun s s' => (h s s').bind fun p q hV => hf p.1 q.1 hV p.2 q.2

theorem steady_pure (a : α) : Steady o (pure a : Work σ Call Answer α) :=
  fun _ _ => .done rfl

theorem Steady.bind {m : Work σ Call Answer α} (h : Steady o m) {f : α → Work σ Call Answer β}
    (hf : ∀ a, Steady o (f a)) : Steady o (m >>= f) :=
  Alike.bind h fun a _ hab => hab ▸ hf a

theorem steady_crash : Steady o (crash : Work σ Call Answer α) :=
  fun _ _ => .crash

theorem steady_modify (f : σ → σ) : Steady o (modify f : Work σ Call Answer Unit) :=
  fun _ _ => .done rfl

/-- Records of which an observer sees the same. -/
theorem alike_publish {r r' : Record} (h : o.view r = o.view r') :
    Alike o Eq (publish r : Work σ Call Answer Unit) (publish r') :=
  fun _ _ => .publish h (.done rfl)

theorem silent_pure (a : α) : Silent o (pure a : Work σ Call Answer α) :=
  fun _ => .done _

theorem silent_warn (m : Warning) : Silent o (warn m : Work σ Call Answer Unit) :=
  fun _ => .warn (.done _)

theorem silent_modifyGet (f : σ → α × σ) : Silent o (modifyGet f : Work σ Call Answer α) :=
  fun _ => .done _

theorem Silent.bind {m : Work σ Call Answer α} (h : Silent o m) {f : α → Work σ Call Answer β}
    (hf : ∀ a, Silent o (f a)) : Silent o (m >>= f) :=
  fun s => (h s).bind fun p => hf p.1 p.2

/-- What silent work comes to may depend on its state. -/
theorem Silent.alike {m : Work σ Call Answer α} (h : Silent o m) :
    Alike o (fun _ _ => True) m m :=
  fun s s' => (h s).alike (h s') fun _ _ => trivial

theorem Silent.steady {m : Work σ Call Answer Unit} (h : Silent o m) : Steady o m :=
  fun s s' => (h s).alike (h s') fun _ _ => rfl

theorem steady_skip (type : AssetType) (field : String) :
    Steady o (Emitter.skip type field : Work σ Call Answer Nat) :=
  (silent_warn _).steady.bind fun _ => steady_pure 0

end Steps

/-! ### Attempts and lists -/

section Attempts

variable {o : Observer Call}

theorem steady_ask {c : Call} (h : o.hears c = true) :
    Steady o (ask c : Attempt σ Call Answer (Answer c)).run :=
  fun _ _ => .call h fun _ => .done rfl

theorem silent_ask {c : Call} (h : o.hears c = false) :
    Silent o (ask c : Attempt σ Call Answer (Answer c)).run :=
  fun _ => .call h fun _ => .done _

theorem Steady.attempt {m : Attempt σ Call Answer α} (h : Steady o m.run)
    {f : α → Attempt σ Call Answer β} (hf : ∀ a, Steady o (f a).run) :
    Steady o (m >>= f).run := by
  rw [ExceptT.run_bind]
  refine h.bind fun r => ?_
  cases r with
  | ok a => exact hf a
  | error e => exact steady_pure _

theorem Silent.attempt {m : Attempt σ Call Answer α} (h : Silent o m.run)
    {f : α → Attempt σ Call Answer β} (hf : ∀ a, Silent o (f a).run) :
    Silent o (m >>= f).run := by
  rw [ExceptT.run_bind]
  refine h.bind fun r => ?_
  cases r with
  | ok a => exact hf a
  | error e => exact silent_pure _

theorem Steady.lift {m : Work σ Call Answer α} (h : Steady o m) :
    Steady o (monadLift m : Attempt σ Call Answer α).run := by
  rw [run_lift]
  exact h.bind fun _ => steady_pure _

theorem Silent.lift {m : Work σ Call Answer α} (h : Silent o m) :
    Silent o (monadLift m : Attempt σ Call Answer α).run := by
  rw [run_lift]
  exact h.bind fun _ => silent_pure _

theorem steady_total {f : α → Work σ Call Answer Nat} (h : ∀ a, Steady o (f a)) :
    ∀ as : List α, Steady o (total f as)
  | [] => steady_pure 0
  | a :: as => (h a).bind fun n => (steady_total h as).bind fun m => steady_pure (n + m)

theorem steady_totalAttempt {f : α → Attempt σ Call Answer Nat} (h : ∀ a, Steady o (f a).run) :
    ∀ as : List α, Steady o (totalAttempt f as).run
  | [] => steady_pure _
  | a :: as =>
    (h a).attempt fun _ => (steady_totalAttempt h as).attempt fun _ => steady_pure _

theorem steady_scopes {collect : String → Attempt σ Call Answer Nat}
    (h : ∀ scope, Steady o (collect scope).run) (ps : List String) :
    Steady o (scopes collect ps).run := by
  suffices hfrom : ∀ (ps : List String) (tally : Tally),
      Steady o (scopesFrom collect tally ps) from
    (hfrom ps .empty).bind fun _ => steady_pure _
  intro ps
  induction ps with
  | nil => exact fun tally => steady_pure tally
  | cons p ps ih =>
    intro tally
    refine (h p).bind fun outcome => Steady.bind ?_ fun _ => ih (tally.add outcome)
    refine Silent.steady ?_
    rcases outcome with (_ | _) | _
    all_goals first | exact silent_pure () | exact silent_warn _

end Attempts

end Work

end CloudInventory
