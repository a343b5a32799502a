import CloudInventory.Proofs.Program.Observers

/-!
Traces of work: what comes of it together with its exchanges. `Traces w m V` says of work `m` that
it ends, whatever its state and whatever has happened before, and that `V` holds of its result, of
its calls with their answers, and of the records that it adds. Both lists grow by what each step
contributes, so there is one rule for each step. At the end stand programs that do nothing but make
calls as long as these succeed.
-/

namespace CloudInventory

variable {σ Call : Type} {Answer : Call → Type} {α β : Type}

/-- The exchanges of a program are followed by those of what goes on with its result. -/
theorem Program.exchanges_bind (w : World Call Answer) (f : α → Program σ Call Answer β) :
    ∀ (p : Program σ Call Answer α) (t : Session Call), (p.bind f).exchanges w t =
      p.exchanges w t ++
        match p.run w t with
        | (.result a, t') => (f a).exchanges w t'
        | (.brokenOff _, _) => []
  | done _, _ => rfl
  | call c next, t => by
    rw [run_call]
    exact congrArg (_ :: ·) (exchanges_bind w f (next (t.ask w c).1) (t.ask w c).2)
  | cancelled next, t => exchanges_bind w f (next t.cancelled) t
  | publish _ next, _ => exchanges_bind w f next _
  | warn _ next, _ => exchanges_bind w f next _
  | crash _, _ => rfl

namespace Work

/-- Work ends, and `V` holds of its result, of its exchanges, and of the records that it adds. -/
def Traces (w : World Call Answer) (m : Work σ Call Answer α)
    (V : α → List (Exchange Call Answer) → List Record → Prop) : Prop :=
  ∀ s t, ∃ a s' t' new, (m s).run w t = (.result (a, s'), t') ∧ t'.records = t.records ++ new ∧
    V a ((m s).exchanges w t) new

variable {w : World Call Answer}

theorem Traces.mono {m : Work σ Call Answer α}
    {V V' : α → List (Exchange Call Answer) → List Record → Prop} (h : Traces w m V)
    (hV : ∀ a log new, V a log new → V' a log new) : Traces w m V' := by
  intro s t
  obtain ⟨a, s', t', new, hrun, hnew, ha⟩ := h s t
  exact ⟨a, s', t', new, hrun, hnew, hV _ _ _ ha⟩

theorem traces_pure {a : α} {V : α → List (Exchange Call Answer) → List Record → Prop}
    (h : V a [] []) : Traces w (pure a : Work σ Call Answer α) V :=
  fun s t => ⟨a, s, t, [], rfl, (List.append_nil _).symm, h⟩

theorem Traces.bind {m : Work σ Call Answer α} {f : α → Work σ Call Answer β}
    {V : α → List (Exchange Call Answer) → List Record → Prop}
    {V' : β → List (Exchange Call Answer) → List Record → Prop} (h : Traces w m V)
    (hf : ∀ a log new, V a log new →
      Traces w (f a) fun b log' new' => V' b (log ++ log') (new ++ new')) :
    Traces w (m >>= f) V' := by
  intro s t
  obtain ⟨a, s', t', new, hrun, hnew, ha⟩ := h s t
  obtain ⟨b, s'', t'', new', hrun', hnew', hb⟩ := hf a _ new ha s' t'
  have hbind : (m >>= f) s = (m s).bind fun p => f p.1 p.2 := rfl
  refine ⟨b, s'', t'', new ++ new', ?_, by rw [hnew', hnew, List.append_assoc], ?_⟩
  · rw [hbind, Program.run_bind, hrun, ← hrun']
  · rw [hbind, Program.exchanges_bind, hrun]
    exact hb

theorem traces_warnThen {m : Warning} {f : Unit → Work σ Call Answer α}
    {V : α → List (Exchange Call Answer) → List Record → Prop} (h : Traces w (f ()) V) :
    Traces w (warn m >>= f) V := by
  refine Traces.bind (V := fun _ log new => log = [] ∧ new = []) (fun s t => ?_) ?_
  · exact ⟨(), s, { t with warnings := t.warnings ++ [m] }, [], rfl, (List.append_nil _).symm,
      rfl, rfl⟩
  · rintro _ _ _ ⟨rfl, rfl⟩
    exact h

theorem traces_skip (type : AssetType) (field : String)
    {V : Nat → List (Exchange Call Answer) → List Record → Prop} (h : V 0 [] []) :
    Traces w (Emitter.skip type field : Work σ Call Answer Nat) V :=
  traces_warnThen (traces_pure h)

/-- One record is published, and counted. -/
theorem traces_emit {e : Emitter} {type : AssetType} {id : String} {patches : List Patch}
    {V : Nat → List (Exchange Call Answer) → List Record → Prop}
    (h : V 1 [] [.compose e.stamp (Patch.typed type id e.space ++ patches)]) :
    Traces w (do e.emit type id patches; return 1 : Work σ Call Answer Nat) V :=
  fun _ _ => ⟨1, _, _, _, rfl, rfl, h⟩

/-- A call is one exchange, whatever it is answered. -/
theorem traces_ask {c : Call}
    {V : Except CollectorError (Answer c) → List (Exchange Call Answer) → List Record → Prop}
    (h : ∀ r, V r [⟨c, r⟩] []) :
    Traces w (ask c : Attempt σ Call Answer (Answer c)).run V := by
  intro s t
  have hask : (ask c : Attempt σ Call Answer (Answer c)).run s =
      .call c fun r => .done (r, s) := rfl
  refine ⟨(t.ask w c).1, s, (t.ask w c).2, [], ?_, ?_, h _⟩
  · rw [hask, Program.run_call]
    rfl
  · rw [Session.ask_records, List.append_nil]

theorem Traces.lift {m : Work σ Call Answer α}
    {V : Except CollectorError α → List (Exchange Call Answer) → List Record → Prop}
    (h : Traces w m fun a => V (.ok a)) :
    Traces w (monadLift m : Attempt σ Call Answer α).run V := by
  rw [run_lift]
  refine h.bind fun a log new ha => traces_pure ?_
  rwa [List.append_nil, List.append_nil]

/-- After a failure nothing of the attempt is done. -/
theorem Traces.attempt {m : Attempt σ Call Answer α} {f : α → Attempt σ Call Answer β}
    {V : Except CollectorError α → List (Exchange Call Answer) → List Record → Prop}
    {V' : Except CollectorError β → List (Exchange Call Answer) → List Record → Prop}
    (h : Traces w m.run V) (hfail : ∀ e log new, V (.error e) log new → V' (.error e) log new)
    (hok : ∀ a log new, V (.ok a) log new →
      Traces w (f a).run fun r log' new' => V' r (log ++ log') (new ++ new')) :
    Traces w (m >>= f).run V' := by
  rw [ExceptT.run_bind]
  refine h.bind fun r log new hr => ?_
  cases r with
  | error e =>
    refine traces_pure ?_
    rw [List.append_nil, List.append_nil]
    exact hfail e log new hr
  | ok a => exact hok a log new hr

/-- What is made of the result of an attempt. -/
theorem Traces.map {m : Attempt σ Call Answer α} {g : α → β}
    {V : Except CollectorError β → List (Exchange Call Answer) → List Record → Prop}
    (h : Traces w m.run fun r => V (r.map g)) :
    Traces w (do let a ← m; return g a : Attempt σ Call Answer β).run V := by
  refine h.attempt (fun _ _ _ => id) fun a log new ha => traces_pure ?_
  rwa [List.append_nil, List.append_nil]

/-- A call, and then what is attempted with its answer. -/
theorem traces_askThen {c : Call} {f : Answer c → Attempt σ Call Answer α}
    {V : Except CollectorError α → List (Exchange Call Answer) → List Record → Prop}
    (hfail : ∀ e, V (.error e) [⟨c, .error e⟩] [])
    (hok : ∀ a, Traces w (f a).run fun r log new => V r (⟨c, .ok a⟩ :: log) new) :
    Traces w (do let a ← ask c; f a : Attempt σ Call Answer α).run V := by
  refine (traces_ask (V := fun r log new => log = [⟨c, r⟩] ∧ new = []) fun r => ⟨rfl, rfl⟩).attempt
    ?_ ?_
  · rintro e _ _ ⟨rfl, rfl⟩
    exact hfail e
  · rintro a _ _ ⟨rfl, rfl⟩
    exact hok a

/-- One item after another, each of which adds some records and calls for nothing. -/
theorem traces_total {f : α → Work σ Call Answer Nat} {records : α → List Record} :
    ∀ {as : List α},
      (∀ a ∈ as, Traces w (f a) fun n log new =>
        n = new.length ∧ log = [] ∧ new = records a) →
      Traces w (total f as) fun n log new =>
        n = new.length ∧ log = [] ∧ new = as.flatMap records
  | [], _ => traces_pure ⟨rfl, rfl, rfl⟩
  | a :: as, h => by
    refine (h a List.mem_cons_self).bind ?_
    rintro n _ new ⟨rfl, rfl, rfl⟩
    refine (traces_total fun b hb => h b (List.mem_cons_of_mem _ hb)).bind ?_
    rintro m _ rest ⟨rfl, rfl, rfl⟩
    refine traces_pure ⟨?_, rfl, ?_⟩
    · rw [List.append_nil, List.length_append]
    · rw [List.append_nil, List.flatMap_cons]

end Work

/-! ### Successful calls -/

/-- As long as calls succeed, a program makes calls and nothing else, until it comes to a result of
which `V` holds. -/
inductive Program.Smooth (V : α → Prop) : Program σ Call Answer α → Prop
  | done {a : α} (h : V a) : Smooth V (.done a)
  | call {c : Call} {next : Except CollectorError (Answer c) → Program σ Call Answer α}
      (h : ∀ a, Smooth V (next (.ok a))) : Smooth V (.call c next)

theorem Program.Smooth.bind {V : α → Prop} {V' : β → Prop} {p : Program σ Call Answer α}
    (h : p.Smooth V) {f : α → Program σ Call Answer β} (hf : ∀ a, V a → (f a).Smooth V') :
    (p.bind f).Smooth V' := by
  induction h with
  | done h => exact hf _ h
  | call _ ih => exact .call ih

theorem Program.Smooth.run {w : World Call Answer} {V : α → Prop} {p : Program σ Call Answer α}
    (h : p.Smooth V) : ∀ {t : Session Call}, (∀ x ∈ p.exchanges w t, ∃ a, x.2 = .ok a) →
      (p.run w t).2.warnings = t.warnings := by
  induction h with
  | done => exact fun _ => rfl
  | @call c next _ ih =>
    intro t hall
    obtain ⟨a, ha : (t.ask w c).1 = .ok a⟩ := hall _ List.mem_cons_self
    have hrest := ih a (t := (t.ask w c).2) fun x hx =>
      hall x (List.mem_cons_of_mem _ (by rwa [ha]))
    rw [run_call, ha, hrest, Session.ask_warnings]

namespace Work

/-- As long as calls succeed, work makes calls and nothing else, and `V` holds of its result. -/
def Smooth (V : α → Prop) (m : Work σ Call Answer α) : Prop := ∀ s, (m s).Smooth fun p => V p.1

theorem smooth_pure {V : α → Prop} {a : α} (h : V a) : Smooth V (pure a : Work σ Call Answer α) :=
  fun _ => .done h

theorem Smooth.bind {V : α → Prop} {V' : β → Prop} {m : Work σ Call Answer α} (h : Smooth V m)
    {f : α → Work σ Call Answer β} (hf : ∀ a, V a → Smooth V' (f a)) : Smooth V' (m >>= f) :=
  fun s => (h s).bind fun p hp => hf p.1 hp p.2

theorem smooth_ask (c : Call) :
    Smooth (fun r => ∃ a, r = .ok a) (ask c : Attempt σ Call Answer (Answer c)).run :=
  fun _ => .call fun a => .done ⟨a, rfl⟩

theorem Smooth.attempt {m : Attempt σ Call Answer α} (h : Smooth (fun r => ∃ a, r = .ok a) m.run)
    {f : α → Attempt σ Call Answer β} {V : Except CollectorError β → Prop}
    (hf : ∀ a, Smooth V (f a).run) : Smooth V (m >>= f).run := by
  rw [ExceptT.run_bind]
  refine h.bind ?_
  rintro _ ⟨a, rfl⟩
  exact hf a

end Work

end CloudInventory
