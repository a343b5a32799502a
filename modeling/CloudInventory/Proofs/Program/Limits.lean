import CloudInventory.Proofs.Program.Apart

/-!
Limits of work: which calls it makes, what it publishes, and what it takes for it to break off,
whatever it is answered. If every call and every record in a program has some property, then in
every world so has every call and every record of a run. There is one rule for each step that work
can be made of. On the other hand a call that work begins with is made, unless shutdown has been
signalled, and what follows takes no call back.
-/

namespace CloudInventory

/-- A call, as the one with number `k` in one world and with number `k'` in another one, gets the
same answer in both, and is overtaken in both or in none. -/
def World.Alike {Call : Type} {Answer : Call → Type} (w w' : World Call Answer) (k k' : Nat)
    (c : Call) : Prop :=
  w'.answer k' c = w.answer k c ∧ w'.signal k' c = w.signal k c

variable {σ Call : Type} {Answer : Call → Type} {α β : Type} {B : Prop} {Q : Call → Prop}
  {P : Record → Prop} {w : World Call Answer}

/-! ### Programs -/

namespace Program

/-- Every call that a program can make has a property, and so has every record that it can
publish. It breaks off only if `B` holds. -/
inductive KeepsTo (B : Prop) (Q : Call → Prop) (P : Record → Prop) :
    Program σ Call Answer α → Prop
  | done (a : α) : KeepsTo B Q P (.done a)
  | crash {left : σ} (h : B) : KeepsTo B Q P (.crash left)
  | call {c : Call} {next : Except CollectorError (Answer c) → Program σ Call Answer α} (hc : Q c)
      (h : ∀ r, KeepsTo B Q P (next r)) : KeepsTo B Q P (.call c next)
  | cancelled {next : Bool → Program σ Call Answer α} (h : ∀ b, KeepsTo B Q P (next b)) :
      KeepsTo B Q P (.cancelled next)
  | publish {r : Record} {p : Program σ Call Answer α} (hr : P r) (h : KeepsTo B Q P p) :
      KeepsTo B Q P (.publish r p)
  | warn {m : Warning} {p : Program σ Call Answer α} (h : KeepsTo B Q P p) :
      KeepsTo B Q P (.warn m p)

theorem KeepsTo.mono {B' : Prop} {Q' : Call → Prop} {p : Program σ Call Answer α}
    (h : p.KeepsTo B Q P) (hB : B → B') (hQ : ∀ c, Q c → Q' c) : p.KeepsTo B' Q' P := by
  induction h with
  | done a => exact .done a
  | crash h => exact .crash (hB h)
  | call hc _ ih => exact .call (hQ _ hc) ih
  | cancelled _ ih => exact .cancelled ih
  | publish hr _ ih => exact .publish hr ih
  | warn _ ih => exact .warn ih

theorem KeepsTo.bind {p : Program σ Call Answer α} (h : p.KeepsTo B Q P)
    {f : α → Program σ Call Answer β} (hf : ∀ a, (f a).KeepsTo B Q P) :
    (p.bind f).KeepsTo B Q P := by
  induction h with
  | done a => exact hf a
  | crash h => exact .crash h
  | call hc _ ih => exact .call hc ih
  | cancelled _ ih => exact .cancelled ih
  | publish hr _ ih => exact .publish hr ih
  | warn _ ih => exact .warn ih

/-- Asking for one thing makes no other call. -/
theorem mem_ask {t : Session Call} {c d : Call} (h : d ∈ (t.ask w c).2.calls) :
    d ∈ t.calls ∨ d = c := by
  unfold Session.ask at h
  split at h
  · exact .inl h
  · split at h <;> simpa using h

/-- What has happened in a run is what a program keeps to. -/
theorem KeepsTo.run {p : Program σ Call Answer α} (h : p.KeepsTo B Q P) :
    ∀ {t : Session Call}, (∀ c ∈ t.calls, Q c) → (∀ r ∈ t.records, P r) →
      (∀ c ∈ (p.run w t).2.calls, Q c) ∧ ∀ r ∈ (p.run w t).2.records, P r := by
  induction h with
  | done | crash => exact fun hcalls hrecords => ⟨hcalls, hrecords⟩
  | call hc _ ih =>
    intro t hcalls hrecords
    rw [run_call]
    refine ih _ (fun d hd => ?_) (by rwa [Session.ask_records])
    rcases mem_ask hd with hd | rfl
    · exact hcalls d hd
    · exact hc
  | cancelled _ ih => exact fun hcalls hrecords => ih _ hcalls hrecords
  | publish hr _ ih =>
    intro t hcalls hrecords
    exact ih hcalls (List.forall_mem_append.2 ⟨hrecords, List.forall_mem_singleton.2 hr⟩)
  | warn _ ih => exact fun hcalls hrecords => ih hcalls hrecords

theorem calls_prefix_run (p : Program σ Call Answer α) (t : Session Call) :
    t.calls <+: (p.run w t).2.calls :=
  run_keeps (I := fun t' => t.calls <+: t'.calls) (fun _ _ h => h.trans Session.ask_calls)
    (fun _ _ h => h) (fun _ _ h => h) p t List.prefix_rfl

/-- A run is the same in another world that answers alike the calls that the program can make, as
often as calls are made. -/
theorem KeepsTo.run_congr {w' : World Call Answer} {p : Program σ Call Answer α}
    (h : p.KeepsTo B Q P) : ∀ {t : Session Call},
    (∀ k c, k < (p.run w t).2.calls.length → Q c → w.Alike w' k k c) →
      p.run w' t = p.run w t := by
  induction h with
  | done | crash => exact fun _ => rfl
  | @call c next hc _ ih =>
    intro t halike
    rw [run_call] at halike
    rw [run_call, run_call]
    have hsame : t.ask w' c = t.ask w c := by
      cases hgo : t.cancelled with
      | true => rw [Session.ask_of_cancelled hgo, Session.ask_of_cancelled hgo]
      | false =>
        have hlength := (calls_prefix_run (w := w) (next (t.ask w c).1) (t.ask w c).2).length_le
        rw [(Session.ask_calls_of_go hgo c).1, List.length_append, List.length_singleton] at hlength
        obtain ⟨hanswer, hsignal⟩ := halike t.calls.length c (by omega) hc
        unfold Session.ask
        rw [hanswer, hsignal]
    rw [hsame]
    exact ih _ halike
  | cancelled _ ih => exact fun halike => ih _ halike
  | publish _ _ ih => exact fun halike => ih halike
  | warn _ ih => exact fun halike => ih halike

end Program

/-! ### Work -/

namespace Work

/-- Every call that work can make, from any state, has a property, and so has every record that it
can publish. It breaks off only if `B` holds. -/
def KeepsTo (B : Prop) (Q : Call → Prop) (P : Record → Prop) (m : Work σ Call Answer α) : Prop :=
  ∀ s, (m s).KeepsTo B Q P

theorem KeepsTo.mono {B' : Prop} {Q' : Call → Prop} {m : Work σ Call Answer α}
    (h : KeepsTo B Q P m) (hB : B → B') (hQ : ∀ c, Q c → Q' c) : KeepsTo B' Q' P m :=
  fun s => (h s).mono hB hQ

theorem keepsTo_pure (a : α) : KeepsTo B Q P (pure a : Work σ Call Answer α) := fun _ => .done _

theorem KeepsTo.bind {m : Work σ Call Answer α} (h : KeepsTo B Q P m) {f : α → Work σ Call Answer β}
    (hf : ∀ a, KeepsTo B Q P (f a)) : KeepsTo B Q P (m >>= f) :=
  fun s => (h s).bind fun p => hf p.1 p.2

theorem keepsTo_publish {r : Record} (h : P r) :
    KeepsTo B Q P (publish r : Work σ Call Answer Unit) := fun _ => .publish h (.done _)

theorem keepsTo_warn (m : Warning) : KeepsTo B Q P (warn m : Work σ Call Answer Unit) :=
  fun _ => .warn (.done _)

theorem keepsTo_crash (h : B) : KeepsTo B Q P (crash : Work σ Call Answer α) := fun _ => .crash h

theorem keepsTo_modify (f : σ → σ) : KeepsTo B Q P (modify f : Work σ Call Answer Unit) :=
  fun _ => .done _

theorem keepsTo_modifyGet (f : σ → α × σ) : KeepsTo B Q P (modifyGet f : Work σ Call Answer α) :=
  fun _ => .done _

theorem keepsTo_skip (type : AssetType) (field : String) :
    KeepsTo B Q P (Emitter.skip type field : Work σ Call Answer Nat) :=
  (keepsTo_warn _).bind fun _ => keepsTo_pure 0

/-- A record is published and counted. -/
theorem keepsTo_emit {e : Emitter} {type : AssetType} {id : String} {patches : List Patch}
    (h : P (.compose e.stamp (Patch.typed type id e.space ++ patches))) :
    KeepsTo B Q P (do e.emit type id patches; return 1 : Work σ Call Answer Nat) :=
  (keepsTo_publish h).bind fun _ => keepsTo_pure 1

theorem keepsTo_ask {c : Call} (h : Q c) :
    KeepsTo B Q P (ask c : Attempt σ Call Answer (Answer c)).run :=
  fun _ => .call h fun _ => .done _

theorem keepsTo_checkpoint :
    KeepsTo B Q P (checkpoint : Attempt σ Call Answer Unit).run :=
  fun _ => .cancelled fun _ => .done _

theorem KeepsTo.attempt {m : Attempt σ Call Answer α} (h : KeepsTo B Q P m.run)
    {f : α → Attempt σ Call Answer β} (hf : ∀ a, KeepsTo B Q P (f a).run) :
    KeepsTo B Q P (m >>= f).run := by
  rw [ExceptT.run_bind]
  refine h.bind fun r => ?_
  cases r with
  | ok a => exact hf a
  | error e => exact keepsTo_pure _

theorem KeepsTo.lift {m : Work σ Call Answer α} (h : KeepsTo B Q P m) :
    KeepsTo B Q P (monadLift m : Attempt σ Call Answer α).run := by
  rw [run_lift]
  exact h.bind fun _ => keepsTo_pure _

theorem keepsTo_return (a : α) : KeepsTo B Q P (pure a : Attempt σ Call Answer α).run :=
  keepsTo_pure _

theorem keepsTo_total {f : α → Work σ Call Answer Nat} :
    ∀ {as : List α}, (∀ a ∈ as, KeepsTo B Q P (f a)) → KeepsTo B Q P (total f as)
  | [], _ => keepsTo_pure 0
  | a :: as, h => by
    refine (h a List.mem_cons_self).bind fun n => ?_
    refine (keepsTo_total fun b hb => h b (List.mem_cons_of_mem a hb)).bind fun m => ?_
    exact keepsTo_pure (n + m)

theorem keepsTo_totalAttempt {f : α → Attempt σ Call Answer Nat} :
    ∀ {as : List α}, (∀ a ∈ as, KeepsTo B Q P (f a).run) → KeepsTo B Q P (totalAttempt f as).run
  | [], _ => keepsTo_return 0
  | a :: as, h => by
    refine (h a List.mem_cons_self).attempt fun n => ?_
    refine (keepsTo_totalAttempt fun b hb => h b (List.mem_cons_of_mem a hb)).attempt fun m => ?_
    exact keepsTo_return (n + m)

/-- A call, and work on every item of its answer. -/
theorem keepsTo_askTotal {c : Call} {items : Answer c → List α} {f : α → Work σ Call Answer Nat}
    (hc : Q c) (h : ∀ a, KeepsTo B Q P (f a)) :
    KeepsTo B Q P (do let a ← ask c; total f (items a) : Attempt σ Call Answer Nat).run :=
  (keepsTo_ask hc).attempt fun _ => (keepsTo_total fun a _ => h a).lift

theorem keepsTo_scopes {collect : String → Attempt σ Call Answer Nat} {ps : List String}
    (h : ∀ p ∈ ps, KeepsTo B Q P (collect p).run) : KeepsTo B Q P (scopes collect ps).run := by
  suffices hfrom : ∀ (ps : List String) (tally : Tally), (∀ p ∈ ps, KeepsTo B Q P (collect p).run) →
      KeepsTo B Q P (scopesFrom collect tally ps) from
    (hfrom ps .empty h).bind fun _ => keepsTo_pure _
  intro ps
  induction ps with
  | nil => exact fun tally _ => keepsTo_pure tally
  | cons p ps ih =>
    intro tally h
    refine (h p List.mem_cons_self).bind fun outcome => ?_
    have hwarned : KeepsTo B Q P (warnOfScope outcome : Work σ Call Answer Unit) := by
      rcases outcome with (_ | _) | _
      all_goals first | exact keepsTo_warn _ | exact keepsTo_pure ()
    exact hwarned.bind fun _ => ih _ fun q hq => h q (List.mem_cons_of_mem p hq)

/-- What has happened when work is over that has begun with nothing. -/
theorem KeepsTo.session {m : Work σ Call Answer α} (h : KeepsTo B Q P m) (w : World Call Answer)
    (s : σ) (cancelled : Bool) :
    (∀ c ∈ ((m s).run w (.start cancelled)).2.calls, Q c) ∧
      ∀ r ∈ ((m s).run w (.start cancelled)).2.records, P r :=
  (h s).run (fun _ hc => absurd hc List.not_mem_nil) fun _ hr => absurd hr List.not_mem_nil

/-- What work that never breaks off ensures holds of what has happened after a run. -/
theorem Ensures.session {m : Work σ Call Answer α} {s : σ} {t : Session Call}
    {P : Session Call → Prop} (h : Ensures w (fun _ _ => False) m s t fun _ _ => P) :
    P ((m s).run w t).2 := by
  obtain ⟨a, s', t', hrun, hP⟩ := h.exists_result
  rwa [hrun]

/-! ### First calls -/

/-- Work begins with a call that has a property. -/
def BeginsWith (Q : Call → Prop) (m : Work σ Call Answer α) : Prop :=
  ∀ s, ∃ c next, m s = .call c next ∧ Q c

/-- What scopes begin with is called for each of them, unless shutdown is signalled. -/
theorem ensures_scopes_begun {collect : String → Attempt σ Call Answer Nat}
    {Q : String → Call → Prop} (h : ∀ p, BeginsWith (Q p) (collect p).run)
    (hcalm : ∀ k c, w.signal k c = none) {s : σ} {t : Session Call} (hgo : t.cancelled = false)
    (ps : List String) :
    Ensures w (fun _ _ => True) (scopes collect ps).run s t fun _ _ t' =>
      ∀ p ∈ ps, ∃ c ∈ t'.calls, Q p c := by
  refine (ensures_scopes (fun done _ t' => t'.cancelled = false ∧
    ∀ p ∈ done, ∃ c ∈ t'.calls, Q p c) ?_ ⟨hgo, nofun⟩).mono fun _ _ _ h => h.2
  rintro done p - s₁ t₁ ⟨hgo₁, hdone⟩
  obtain ⟨c, next, hbegins, hc⟩ := h p s₁
  have hcalls := Program.calls_prefix_run (w := w) (next (t₁.ask w c).1) (t₁.ask w c).2
  have hstill := Program.run_cancelled_of_calm hcalm ((collect p).run s₁) hgo₁
  have hasked : (t₁.ask w c).2.calls = t₁.calls ++ [c] := by
    rw [Session.ask_of_calm hcalm hgo₁]
  unfold Ensures
  rw [hbegins, Program.run_call] at hstill ⊢
  generalize (next (t₁.ask w c).1).run w (t₁.ask w c).2 = ended at hcalls hstill ⊢
  rcases ended with ⟨_ | ⟨result, s'⟩, t'⟩
  · trivial
  · refine fun warnings => ⟨hstill, fun q hq => ?_⟩
    rw [hasked] at hcalls
    rcases List.mem_append.1 hq with hq | hq
    · obtain ⟨d, hd, hQ⟩ := hdone q hq
      exact ⟨d, hcalls.subset (List.mem_append_left _ hd), hQ⟩
    · obtain rfl := List.mem_singleton.1 hq
      exact ⟨c, hcalls.subset (List.mem_append_right _ (List.mem_singleton_self c)), hc⟩

end Work

end CloudInventory
