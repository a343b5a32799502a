import CloudInventory.Proofs.Program.Apart
import CloudInventory.Proofs.Program.Limits

/-!
Items that are skipped. Answers list items, and work publishes them one after another; one that
lacks something is warned of instead. So when an answer is enlarged by such an item, at any place,
then nothing changes but that there is one more warning, unless work breaks off at an item before
that one. This is seen from the programs: wherever a program goes on with an answer, what it does
then is compared with what it does with an enlarged one. The run lemma carries it over to runs in
two worlds in which a single call is answered differently.
-/

namespace CloudInventory

variable {σ Call : Type} {Answer : Call → Type} {α β ι : Type} {m : Warning}
  {w : World Call Answer}

/-- The second list is the first one with one more entry. -/
def Inserted (a : α) (as bs : List α) : Prop :=
  ∃ front rest, as = front ++ rest ∧ bs = front ++ a :: rest

theorem Inserted.length {a : α} {as bs : List α} (h : Inserted a as bs) :
    bs.length = as.length + 1 := by
  obtain ⟨front, rest, rfl, rfl⟩ := h
  simp only [List.length_append, List.length_cons]
  omega

/-! ### One more warning -/

/-- The same has happened in both, but for a warning that there is in the second one only. -/
structure Session.Warned (m : Warning) (t t' : Session Call) : Prop where
  cancelled : t'.cancelled = t.cancelled
  records : t'.records = t.records
  warnings : Inserted m t.warnings t'.warnings

/-- What has happened before does not matter. -/
theorem Session.Warned.followedBy {t t' more more' : Session Call} (h : more.Warned m more')
    (hrecords : t'.records = t.records) (hwarnings : t'.warnings = t.warnings) :
    (t.followedBy more).Warned m (t'.followedBy more') := by
  obtain ⟨front, rest, hmore, hmore'⟩ := h.warnings
  refine ⟨h.cancelled, ?_, t.warnings ++ front, rest, ?_, ?_⟩
  · rw [Session.followedBy, Session.followedBy, hrecords, h.records]
  · rw [Session.followedBy, hmore, List.append_assoc]
  · rw [Session.followedBy, hmore', hwarnings, List.append_assoc]

namespace Program

/-- The second program does the same as the first one, and gives a warning in between. -/
inductive Warns (m : Warning) : Program σ Call Answer α → Program σ Call Answer α → Prop
  | here (p : Program σ Call Answer α) : Warns m p (.warn m p)
  | call {c : Call} {next next' : Except CollectorError (Answer c) → Program σ Call Answer α}
      (h : ∀ r, Warns m (next r) (next' r)) : Warns m (.call c next) (.call c next')
  | cancelled {next next' : Bool → Program σ Call Answer α} (h : ∀ b, Warns m (next b) (next' b)) :
      Warns m (.cancelled next) (.cancelled next')
  | publish {r : Record} {p q : Program σ Call Answer α} (h : Warns m p q) :
      Warns m (.publish r p) (.publish r q)
  | warn {m' : Warning} {p q : Program σ Call Answer α} (h : Warns m p q) :
      Warns m (.warn m' p) (.warn m' q)

theorem Warns.bind {p q : Program σ Call Answer α} (h : Warns m p q)
    (f : α → Program σ Call Answer β) : Warns m (p.bind f) (q.bind f) := by
  induction h with
  | here p => exact .here _
  | call _ ih => exact .call ih
  | cancelled _ ih => exact .cancelled ih
  | publish _ ih => exact .publish ih
  | warn _ ih => exact .warn ih

/-- What goes before does not matter, if it does not break off. -/
theorem Warns.after {Q : Call → Prop} {P : Record → Prop} {p : Program σ Call Answer α}
    (hp : p.KeepsTo False Q P) {f g : α → Program σ Call Answer β} (h : ∀ a, Warns m (f a) (g a)) :
    Warns m (p.bind f) (p.bind g) := by
  induction hp with
  | done a => exact h a
  | crash hbreaks => exact hbreaks.elim
  | call _ _ ih => exact .call ih
  | cancelled _ ih => exact .cancelled ih
  | publish _ _ ih => exact .publish ih
  | warn _ ih => exact .warn ih

theorem Warns.run {p q : Program σ Call Answer α} (h : Warns m p q) : ∀ t : Session Call,
    (q.run w t).1 = (p.run w t).1 ∧ (p.run w t).2.Warned m (q.run w t).2 := by
  induction h with
  | here p =>
    intro t
    show (p.run w { t with warnings := t.warnings ++ [m] }).1 = _ ∧ Session.Warned m _
      (p.run w { t with warnings := t.warnings ++ [m] }).2
    rw [run_eq_followedBy w p t, run_eq_followedBy w p { t with warnings := t.warnings ++ [m] }]
    exact ⟨rfl, rfl, rfl, t.warnings, _, rfl, List.append_assoc t.warnings [m] _⟩
  | call _ ih =>
    intro t
    rw [run_call, run_call]
    exact ih _ _
  | cancelled _ ih => exact fun t => ih _ t
  | publish _ ih => exact fun t => ih _
  | warn _ ih => exact fun t => ih _

/-! ### Breaking off -/

/-- A program breaks off, whatever it is answered. -/
inductive Breaks : Program σ Call Answer α → Prop
  | crash (left : σ) : Breaks (.crash left)
  | call {c : Call} {next : Except CollectorError (Answer c) → Program σ Call Answer α}
      (h : ∀ r, Breaks (next r)) : Breaks (.call c next)
  | cancelled {next : Bool → Program σ Call Answer α} (h : ∀ b, Breaks (next b)) :
      Breaks (.cancelled next)
  | publish {r : Record} {p : Program σ Call Answer α} (h : Breaks p) : Breaks (.publish r p)
  | warn {m : Warning} {p : Program σ Call Answer α} (h : Breaks p) : Breaks (.warn m p)

theorem Breaks.bind {p : Program σ Call Answer α} (h : Breaks p) (f : α → Program σ Call Answer β) :
    Breaks (p.bind f) := by
  induction h with
  | crash left => exact .crash left
  | call _ ih => exact .call ih
  | cancelled _ ih => exact .cancelled ih
  | publish _ ih => exact .publish ih
  | warn _ ih => exact .warn ih

theorem Breaks.after {f : α → Program σ Call Answer β} (h : ∀ a, Breaks (f a)) :
    ∀ p : Program σ Call Answer α, Breaks (p.bind f)
  | .done a => h a
  | .crash left => .crash left
  | .call _ next => .call fun r => Breaks.after h (next r)
  | .cancelled next => .cancelled fun b => Breaks.after h (next b)
  | .publish _ p => .publish (Breaks.after h p)
  | .warn _ p => .warn (Breaks.after h p)

theorem Breaks.run {p : Program σ Call Answer α} (h : Breaks p) : ∀ t : Session Call,
    ∃ left, (p.run w t).1 = .brokenOff left := by
  induction h with
  | crash left => exact fun _ => ⟨left, rfl⟩
  | call _ ih =>
    intro t
    rw [run_call]
    exact ih _ _
  | cancelled _ ih => exact fun t => ih _ t
  | publish _ ih => exact fun t => ih _
  | warn _ ih => exact fun t => ih _

/-! ### What a difference makes -/

/-- The second program gives one more warning; if there is none to give, then both are the same and
break off. -/
def Gains : Option Warning → Program σ Call Answer α → Program σ Call Answer α → Prop
  | some m, p, q => Warns m p q
  | none, p, q => q = p ∧ Breaks p

theorem Gains.bind {o : Option Warning} {p q : Program σ Call Answer α} (h : Gains o p q)
    (f : α → Program σ Call Answer β) : Gains o (p.bind f) (q.bind f) := by
  cases o with
  | some m => exact Warns.bind h f
  | none => exact ⟨congrArg (Program.bind · f) h.1, h.2.bind f⟩

/-- The second run is like the first one but for one more warning; if there is none, then both are
the same and break off. -/
def Gained : Option Warning → Ending σ α × Session Call → Ending σ α × Session Call → Prop
  | some m, x, y => y.1 = x.1 ∧ x.2.Warned m y.2
  | none, x, y => y = x ∧ ∃ left, x.1 = .brokenOff left

theorem Gains.run {o : Option Warning} {p q : Program σ Call Answer α} (h : Gains o p q)
    (t : Session Call) : Gained o (p.run w t) (q.run w t) := by
  cases o with
  | some m => exact Warns.run h t
  | none => exact ⟨congrArg (Program.run w · t) h.1, h.2.run t⟩

/-- Answers may differ in ways that `D` tells, together with what each makes a difference of. A
program takes such differences if, wherever an answer is received, this is the difference that
another answer makes to what follows. -/
inductive Takes (D : Option Warning → (c : Call) → Answer c → Answer c → Prop) :
    Program σ Call Answer α → Prop
  | done (a : α) : Takes D (.done a)
  | crash (left : σ) : Takes D (.crash left)
  | call {c : Call} {next : Except CollectorError (Answer c) → Program σ Call Answer α}
      (hgains : ∀ o a a', D o c a a' → Gains o (next (.ok a)) (next (.ok a')))
      (h : ∀ r, Takes D (next r)) : Takes D (.call c next)
  | cancelled {next : Bool → Program σ Call Answer α} (h : ∀ b, Takes D (next b)) :
      Takes D (.cancelled next)
  | publish {r : Record} {p : Program σ Call Answer α} (h : Takes D p) : Takes D (.publish r p)
  | warn {m : Warning} {p : Program σ Call Answer α} (h : Takes D p) : Takes D (.warn m p)

variable {D : Option Warning → (c : Call) → Answer c → Answer c → Prop}

theorem Takes.bind {p : Program σ Call Answer α} (h : Takes D p) {f : α → Program σ Call Answer β}
    (hf : ∀ a, Takes D (f a)) : Takes D (p.bind f) := by
  induction h with
  | done a => exact hf a
  | crash left => exact .crash left
  | call hgains _ ih => exact .call (fun o a a' hD => (hgains o a a' hD).bind f) ih
  | cancelled _ ih => exact .cancelled ih
  | publish _ ih => exact .publish ih
  | warn _ ih => exact .warn ih

/-- Answers in which nothing can differ make no difference. -/
theorem KeepsTo.takes {B : Prop} {Q : Call → Prop} {P : Record → Prop} {p : Program σ Call Answer α}
    (h : p.KeepsTo B Q P) (hQ : ∀ c, Q c → ∀ o a a', ¬ D o c a a') : Takes D p := by
  induction h with
  | done a => exact .done a
  | @crash left _ => exact .crash left
  | call hc _ ih => exact .call (fun o a a' hD => absurd hD (hQ _ hc o a a')) ih
  | cancelled _ ih => exact .cancelled ih
  | publish _ _ ih => exact .publish ih
  | warn _ ih => exact .warn ih

end Program

/-! ### Another answer -/

/-- The world in which a certain call, as the one with number `k`, gets the answer `a`. -/
def World.answering [DecidableEq Call] (w : World Call Answer) (k : Nat) (c : Call) (a : Answer c) :
    World Call Answer :=
  { w with answer := Function.update w.answer k (Function.update (w.answer k) c (.ok a)) }

namespace World

variable [DecidableEq Call] {k : Nat} {c : Call} {a : Answer c}

theorem after_answering {n : Nat} (h : k < n) : (w.answering k c a).after n = w.after n := by
  have hanswer : (fun j => Function.update w.answer k (Function.update (w.answer k) c (.ok a))
      (n + j)) = fun j => w.answer (n + j) :=
    funext fun j => Function.update_of_ne (by omega) _ _
  unfold World.after answering
  rw [hanswer]

/-- Other calls are answered as before. -/
theorem ask_answering {t : Session Call} (h : t.calls.length ≠ k) (d : Call) :
    t.ask (w.answering k c a) d = t.ask w d := by
  have hanswer : (w.answering k c a).answer t.calls.length = w.answer t.calls.length :=
    Function.update_of_ne h _ _
  unfold Session.ask
  rw [hanswer]
  rfl

/-- A call that is heard gets the answer. -/
theorem ask_answering_self {t : Session Call} (hgo : t.cancelled = false) (hk : t.calls.length = k)
    (hsignal : w.signal k c ≠ some .during) :
    t.ask (w.answering k c a) c = (.ok a, (t.ask w c).2) ∧ (t.ask w c).1 = w.answer k c := by
  subst hk
  have hanswer : (w.answering t.calls.length c a).answer t.calls.length c = .ok a := by
    simp [answering]
  have hsame : (w.answering t.calls.length c a).signal = w.signal := rfl
  have hbegin : ¬ t.cancelled = true := by simp [hgo]
  unfold Session.ask
  rw [if_neg hbegin, if_neg hbegin, hanswer, hsame]
  dsimp only
  split
  case h_1 hduring => exact absurd hduring hsignal
  case h_2 => exact ⟨rfl, rfl⟩
  case h_3 => exact ⟨rfl, rfl⟩

end World

/-- Runs of a program that takes differences in worlds that differ in the answer to one call. -/
theorem Program.Takes.run [DecidableEq Call]
    {D : Option Warning → (c : Call) → Answer c → Answer c → Prop} {p : Program σ Call Answer α}
    (h : Takes D p) {k : Nat} {c : Call} {a a' : Answer c} {o : Option Warning}
    (hD : D o c a a') (hsignal : w.signal k c ≠ some .during) (hanswer : w.answer k c = .ok a) :
    ∀ {t : Session Call}, t.calls.length ≤ k → (p.run w t).2.calls[k]? = some c →
      Gained o (p.run w t) (p.run (w.answering k c a') t) := by
  -- the call is still to come, so that a program that is over has not made it
  have hover {t : Session Call} (hlength : t.calls.length ≤ k) (hk : t.calls[k]? = some c) :
      False :=
    absurd (List.getElem?_eq_some_iff.1 hk).1 (by omega)
  induction h with
  | done => exact fun hlength hk => (hover hlength hk).elim
  | crash => exact fun hlength hk => (hover hlength hk).elim
  | @call d next hgains _ ih =>
    intro t hlength hk
    rw [run_call] at hk ⊢
    rw [run_call]
    cases hgo : t.cancelled with
    | true =>
      have hsame : t.ask (w.answering k c a') d = t.ask w d := by
        rw [Session.ask_of_cancelled hgo, Session.ask_of_cancelled hgo]
      rw [hsame]
      refine ih _ ?_ hk
      rw [Session.ask_of_cancelled hgo]
      exact hlength
    | false =>
      obtain ⟨hcalls, -⟩ := Session.ask_calls_of_go (w := w) hgo d
      rcases Nat.lt_or_eq_of_le hlength with hlt | heq
      · rw [World.ask_answering (by omega)]
        refine ih _ ?_ hk
        rw [hcalls, List.length_append, List.length_singleton]
        omega
      · -- this is the call
        obtain ⟨more, hmore⟩ := calls_prefix_run (w := w) (next (t.ask w d).1) (t.ask w d).2
        obtain rfl : d = c := by
          rw [← hmore, hcalls, List.append_assoc, ← heq, List.getElem?_append_right (Nat.le_refl _),
            Nat.sub_self] at hk
          exact Option.some.inj hk
        obtain ⟨hanswered, hheard⟩ := World.ask_answering_self (a := a') hgo heq hsignal
        rw [hanswered, hheard, hanswer]
        have hafter : (w.answering k d a').after (t.ask w d).2.calls.length =
            w.after (t.ask w d).2.calls.length := by
          refine World.after_answering ?_
          rw [hcalls, List.length_append, List.length_singleton]
          omega
        rw [run_eq_followedBy (w.answering k d a'), hafter, ← run_eq_followedBy]
        exact (hgains o a a' hD).run _
  | cancelled _ ih => exact fun hlength hk => ih _ hlength hk
  | publish _ ih => exact fun hlength hk => ih hlength hk
  | warn _ ih => exact fun hlength hk => ih hlength hk

/-! ### Work -/

namespace Work

variable {D : Option Warning → (c : Call) → Answer c → Answer c → Prop}

/-- Work takes differences from any state. -/
def Takes (D : Option Warning → (c : Call) → Answer c → Answer c → Prop)
    (m : Work σ Call Answer α) : Prop :=
  ∀ s, (m s).Takes D

theorem takes_pure (a : α) : Takes D (pure a : Work σ Call Answer α) := fun _ => .done _

theorem Takes.bind {m : Work σ Call Answer α} (h : Takes D m) {f : α → Work σ Call Answer β}
    (hf : ∀ a, Takes D (f a)) : Takes D (m >>= f) :=
  fun s => (h s).bind fun p => hf p.1 p.2

theorem KeepsTo.takes {B : Prop} {Q : Call → Prop} {P : Record → Prop} {m : Work σ Call Answer α}
    (h : KeepsTo B Q P m) (hQ : ∀ c, Q c → ∀ o a a', ¬ D o c a a') : Takes D m :=
  fun s => (h s).takes hQ

theorem Takes.attempt {m : Attempt σ Call Answer α} (h : Takes D m.run)
    {f : α → Attempt σ Call Answer β} (hf : ∀ a, Takes D (f a).run) : Takes D (m >>= f).run := by
  rw [ExceptT.run_bind]
  refine h.bind fun r => ?_
  cases r with
  | ok a => exact hf a
  | error e => exact takes_pure _

theorem takes_total {f : α → Work σ Call Answer Nat} (h : ∀ a, Takes D (f a)) :
    ∀ as : List α, Takes D (total f as)
  | [] => takes_pure 0
  | a :: as => (h a).bind fun n => (takes_total h as).bind fun m => takes_pure (n + m)

theorem takes_totalAttempt {f : α → Attempt σ Call Answer Nat} (h : ∀ a, Takes D (f a).run) :
    ∀ as : List α, Takes D (totalAttempt f as).run
  | [] => takes_pure _
  | a :: as =>
    (h a).attempt fun n => (takes_totalAttempt h as).attempt fun m => takes_pure (Except.ok (n + m))

theorem takes_scopes {collect : String → Attempt σ Call Answer Nat}
    (h : ∀ p, Takes D (collect p).run) (ps : List String) : Takes D (scopes collect ps).run := by
  suffices hfrom : ∀ (ps : List String) (tally : Tally),
      Takes D (scopesFrom collect tally ps) from
    (hfrom ps .empty).bind fun _ => takes_pure _
  intro ps
  induction ps with
  | nil => exact fun tally => takes_pure tally
  | cons p ps ih =>
    intro tally
    refine (h p).bind fun outcome => Takes.bind ?_ fun _ => ih _
    rcases outcome with (_ | _) | _
    all_goals first | exact fun _ => .warn (.done _) | exact takes_pure ()

/-! ### Items in a row -/

theorem total_append (f : α → Work σ Call Answer Nat) (bs : List α) : ∀ as : List α,
    total f (as ++ bs) = total f as >>= fun n => total f bs >>= fun m => pure (n + m)
  | [] => by simp only [List.nil_append, total, pure_bind, Nat.zero_add, bind_pure]
  | a :: as => by
    rw [List.cons_append, total, total_append f bs as]
    simp only [total, bind_assoc, pure_bind, Nat.add_assoc]

theorem total_map (f : β → Work σ Call Answer Nat) (g : α → β) : ∀ as : List α,
    total f (as.map g) = total (fun a => f (g a)) as
  | [] => rfl
  | a :: as => by rw [List.map_cons, total, total, total_map f g as]

/-- Items of items are gone through like one row of items. -/
theorem total_flatMap (f : β → Work σ Call Answer Nat) (g : α → List β) : ∀ as : List α,
    total f (as.flatMap g) = total (fun a => total f (g a)) as
  | [] => rfl
  | a :: as => by rw [List.flatMap_cons, total_append, total, total_flatMap f g as]

end Work

/-! ### Listings -/

/-- What answers list, and what becomes of an item. -/
structure Catalogue (Call : Type) (Answer : Call → Type) (ι : Type) where
  /-- The items of an answer that are to be published. -/
  items : (c : Call) → Answer c → List ι
  type : ι → AssetType
  /-- What an item lacks that is needed to describe it. -/
  lacks : ι → Option String
  /-- Work breaks off at an item. -/
  stops : ι → Bool

namespace Catalogue

/-- The name of a field that has no value. -/
def blank (field : String) : Option String → Option String
  | none => some field
  | some _ => none

theorem eq_none_of_blank {field field' : String} {value : Option String}
    (h : blank field value = some field') : value = none ∧ field = field' := by
  cases value with
  | none => exact ⟨rfl, Option.some.inj h⟩
  | some _ => cases h

variable (C : Catalogue Call Answer ι)

/-- What an item that lacks something adds after the items `front`: the warning of it, unless work
breaks off before. -/
def gain (front : List ι) (i : ι) (field : String) : Option Warning :=
  if front.any C.stops then none else some (.skippedItem (.invalidItem (C.type i) field))

/-- An answer is enlarged by an item that lacks something. -/
def Enlarges (o : Option Warning) (c : Call) (a a' : Answer c) : Prop :=
  ∃ front i rest field, C.items c a = front ++ rest ∧ C.items c a' = front ++ i :: rest ∧
    C.lacks i = some field ∧ o = C.gain front i field

/-- Work publishes single items: it skips those that lack something, breaks off at those that stop
it, and does not break off at others. For none of them it calls for more items. -/
structure Publishes (P : Record → Prop) (f : ι → Work σ Call Answer Nat) : Prop where
  skips : ∀ i field, C.lacks i = some field → f i = Emitter.skip (C.type i) field
  breaks : ∀ i, C.stops i = true → ∀ s, ∃ left, f i s = .crash left
  keeps : ∀ i, Work.KeepsTo (C.stops i = true) (fun c => ∀ a, C.items c a = []) P (f i)

variable {C} {P : Record → Prop} {f : ι → Work σ Call Answer Nat}

theorem not_enlarges {c : Call} (h : ∀ a, C.items c a = []) (o : Option Warning)
    (a a' : Answer c) : ¬ C.Enlarges o c a a' := by
  rintro ⟨front, i, rest, field, -, hitems, -⟩
  rw [h] at hitems
  simp at hitems

/-- Nothing comes after an item at which work breaks off. -/
theorem Publishes.breaks_total (hf : C.Publishes P f) :
    ∀ {front : List ι} (s : σ), front.any C.stops = true → ∀ bs cs,
      Work.total f (front ++ cs) s = Work.total f (front ++ bs) s ∧
        (Work.total f (front ++ bs) s).Breaks
  | i :: front, s, h, bs, cs => by
    have hsplit (as : List ι) : Work.total f (i :: as) s =
        (f i s).bind fun p => (Work.total f as p.2).bind fun q => .done (p.1 + q.1, q.2) := rfl
    rw [List.cons_append, List.cons_append, hsplit, hsplit]
    cases hstops : C.stops i with
    | true =>
      obtain ⟨left, hleft⟩ := hf.breaks i hstops s
      rw [hleft]
      exact ⟨rfl, .crash left⟩
    | false =>
      rw [List.any_cons, hstops, Bool.false_or] at h
      have hrest (p : Nat × σ) := hf.breaks_total p.2 h bs cs
      exact ⟨congrArg _ (funext fun p => by rw [(hrest p).1]),
        .after (fun p => (hrest p).2.bind _) _⟩

/-- An item that is skipped adds a warning to what comes after. -/
theorem Publishes.total_skipped (hf : C.Publishes P f) {i : ι} {field : String}
    (h : C.lacks i = some field) (rest : List ι) (s : σ) :
    Work.total f (i :: rest) s =
      .warn (.skippedItem (.invalidItem (C.type i) field)) (Work.total f rest s) := by
  have hskip : Work.total f (i :: rest) =
      Work.warn (.skippedItem (.invalidItem (C.type i) field)) >>= fun _ =>
        Work.total f rest := by
    simp only [Work.total, hf.skips i field h, Emitter.skip, bind_assoc, pure_bind, Nat.zero_add,
      bind_pure]
  rw [hskip]
  rfl

theorem Publishes.gains_total (hf : C.Publishes P f) {i : ι} {field : String}
    (h : C.lacks i = some field) (front rest : List ι) (s : σ) :
    Program.Gains (C.gain front i field) (Work.total f (front ++ rest) s)
      (Work.total f (front ++ i :: rest) s) := by
  unfold gain
  split
  case isTrue hstops => exact hf.breaks_total s hstops _ _
  case isFalse hclear =>
    have hfront : Work.KeepsTo False (fun c => ∀ a, C.items c a = []) P (Work.total f front) :=
      Work.keepsTo_total fun j hj => (hf.keeps j).mono
        (fun hj' => hclear (List.any_eq_true.2 ⟨j, hj, hj'⟩)) fun _ => id
    rw [Work.total_append, Work.total_append]
    refine Program.Warns.after (hfront s) fun p => ?_
    show Program.Warns _ ((Work.total f rest p.2).bind _) ((Work.total f (i :: rest) p.2).bind _)
    rw [hf.total_skipped h]
    exact (Program.Warns.here _).bind _

/-- A call, and work that publishes the items of its answer. -/
theorem Publishes.takes_askTotal (hf : C.Publishes P f) {c : Call} {as : Answer c → List α}
    {g : α → Work σ Call Answer Nat} (h : ∀ a, Work.total g (as a) = Work.total f (C.items c a)) :
    Work.Takes C.Enlarges
      (do let a ← Work.ask c; Work.total g (as a) : Attempt σ Call Answer Nat).run := by
  intro s
  -- What follows on the answer, counted over the items that it lists.
  obtain ⟨next, hrun, hok, herror⟩ : ∃ next,
      (do let a ← Work.ask c; Work.total g (as a) : Attempt σ Call Answer Nat).run s =
        .call c next ∧
      (∀ a, next (.ok a) =
        (Work.total f (C.items c a) s).bind fun p => .done (.ok p.1, p.2)) ∧
      ∀ e, next (.error e) = .done (.error e, s) := by
    refine ⟨_, rfl, fun a => ?_, fun e => rfl⟩
    show (Work.total g (as a) s).bind (fun p => Program.done (Except.ok p.1, p.2)) = _
    rw [h]
  rw [hrun]
  refine .call ?_ fun r => ?_
  · rintro o a a' ⟨front, i, rest, field, hitems, hitems', hlacks, rfl⟩
    rw [hok, hok, hitems, hitems']
    exact (hf.gains_total hlacks front rest s).bind _
  · cases r with
    | ok a =>
      have htotal : Work.Takes C.Enlarges (Work.total f (C.items c a)) :=
        Work.takes_total (fun i => (hf.keeps i).takes fun c hc => not_enlarges hc) _
      rw [hok]
      exact (htotal s).bind fun p => .done _
    | error e =>
      rw [herror]
      exact .done _

/-! ### Insertions -/

variable (C) in
/-- A listing that is received in a run, and the same listing with one more item, which lacks
something. -/
structure Insertion (w : World Call Answer) (calls : List Call) where
  /-- Which of the calls is answered with the listing. -/
  number : Nat
  call : Call
  listing : Answer call
  /-- The listing with the item. -/
  enlarged : Answer call
  front : List ι
  item : ι
  rest : List ι
  /-- What the item lacks. -/
  field : String
  made : calls[number]? = some call
  inTime : w.signal number call ≠ some .during
  answered : w.answer number call = .ok listing
  items : C.items call listing = front ++ rest
  items' : C.items call enlarged = front ++ item :: rest
  lacking : C.lacks item = some field

namespace Insertion

variable {s : σ} {cancelled : Bool} {m : Work σ Call Answer α}
  (x : C.Insertion w ((m s).run w (.start cancelled)).2.calls)

/-- The world in which the listing has the item. -/
def world [DecidableEq Call] {calls : List Call} (x : C.Insertion w calls) : World Call Answer :=
  w.answering x.number x.call x.enlarged

/-- Work breaks off before it comes to the item. -/
def CutOff {calls : List Call} (x : C.Insertion w calls) : Prop := ∃ i ∈ x.front, C.stops i = true

/-- The warning that the item is skipped. -/
def warning {calls : List Call} (x : C.Insertion w calls) : Warning :=
  .skippedItem (.invalidItem (C.type x.item) x.field)

theorem gained [DecidableEq Call] (h : Work.Takes C.Enlarges m) :
    Program.Gained (C.gain x.front x.item x.field) ((m s).run w (.start cancelled))
      ((m s).run x.world (.start cancelled)) :=
  (h s).run ⟨x.front, x.item, x.rest, x.field, x.items, x.items', x.lacking, rfl⟩ x.inTime
    x.answered (Nat.zero_le _) x.made

/-- Work that is not cut off skips the item. -/
theorem run_of_clear [DecidableEq Call] (h : Work.Takes C.Enlarges m) (hclear : ¬ x.CutOff) :
    ((m s).run x.world (.start cancelled)).1 = ((m s).run w (.start cancelled)).1 ∧
      ((m s).run w (.start cancelled)).2.Warned x.warning
        ((m s).run x.world (.start cancelled)).2 := by
  have hgain : C.gain x.front x.item x.field = some x.warning :=
    if_neg (by simpa [CutOff] using hclear)
  have hgained := x.gained h
  rwa [hgain] at hgained

/-- Work that is cut off does the same with the item and without it. -/
theorem run_of_cutOff [DecidableEq Call] (h : Work.Takes C.Enlarges m) (hcut : x.CutOff) :
    (m s).run x.world (.start cancelled) = (m s).run w (.start cancelled) ∧
      ∃ left, ((m s).run w (.start cancelled)).1 = .brokenOff left := by
  have hgain : C.gain x.front x.item x.field = none :=
    if_pos (by simpa [CutOff] using hcut)
  have hgained := x.gained h
  rwa [hgain] at hgained

end Insertion

end Catalogue

end CloudInventory
