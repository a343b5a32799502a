import CloudInventory.Proofs.Program.Ensures

/-!
Accounts of what has been told and what has been published. The answers to calls tell of items, and
work publishes a record for each of them, one after another. An account says what a record has to do
with its item, and what holds of the state once some items have been published. It is settled when
there is a record for every item told so far. Work that breaks off leaves records for the first few
of the items only.
-/

namespace CloudInventory

variable {σ Call : Type} {Answer : Call → Type} {α ι : Type}

namespace Session

/-- What an answer tells of; a failure tells of nothing. -/
def tellings (tell : (c : Call) → Answer c → List ι) (c : Call) :
    Except CollectorError (Answer c) → List ι
  | .ok a => tell c a
  | .error _ => []

/-- What the call at some place has told of; nothing if it has been abandoned. -/
def toldAt (w : World Call Answer) (tell : (c : Call) → Answer c → List ι) (k : Nat) (c : Call) :
    List ι :=
  if w.signal k c = some .during then [] else tellings tell c (w.answer k c)

/-- The items that calls have told of, in the order of the calls. -/
def told (w : World Call Answer) (tell : (c : Call) → Answer c → List ι) (t : Session Call) :
    List ι :=
  t.calls.zipIdx.flatMap fun p => toldAt w tell p.2 p.1

/-- Items are told of by answers only. -/
theorem exists_of_mem_told {w : World Call Answer} {tell : (c : Call) → Answer c → List ι}
    {t : Session Call} {i : ι} (h : i ∈ t.told w tell) : ∃ c a, i ∈ tell c a := by
  obtain ⟨⟨c, k⟩, -, hi⟩ := List.mem_flatMap.1 h
  unfold toldAt tellings at hi
  split at hi
  · cases hi
  · split at hi
    · exact ⟨c, _, hi⟩
    · cases hi

/-- After a call, its answer has told of something more. -/
theorem told_ask (w : World Call Answer) (tell : (c : Call) → Answer c → List ι) (c : Call)
    (t : Session Call) :
    (t.ask w c).2.told w tell = t.told w tell ++ tellings tell c (t.ask w c).1 := by
  unfold ask
  split
  · exact (List.append_nil _).symm
  · have hcalls : ((t.calls ++ [c]).zipIdx.flatMap fun p => toldAt w tell p.2 p.1) =
        t.told w tell ++ toldAt w tell t.calls.length c := by
      rw [List.zipIdx_append, List.flatMap_append, told]
      simp
    unfold toldAt at hcalls
    split
    case h_1 hsignal =>
      rw [if_pos hsignal] at hcalls
      exact hcalls
    case h_2 hsignal =>
      rw [if_neg (by simp [hsignal])] at hcalls
      exact hcalls
    case h_3 hsignal =>
      rw [if_neg (by simp [hsignal])] at hcalls
      exact hcalls

end Session

/-- An account of work in a world. -/
structure Account (σ Call : Type) (Answer : Call → Type) (ι : Type) where
  world : World Call Answer
  /-- The items that an answer tells of. -/
  tell : (c : Call) → Answer c → List ι
  /-- What holds of the state when some items have been published. -/
  State : List ι → σ → Prop
  /-- A record is that of an item. -/
  Describes : ι → Record → Prop
  /-- What holds of the items that have been published and of the state if work breaks off. -/
  Breaks : List ι → σ → Prop

namespace Account

variable (A : Account σ Call Answer ι)

/-- The items that have been told of. -/
def told (t : Session Call) : List ι := t.told A.world A.tell

/-- There are records for the items `done`, and for no others. -/
structure Posted (done : List ι) (s : σ) (t : Session Call) : Prop where
  state : A.State done s
  records : List.Forall₂ A.Describes done t.records

/-- There are records for all items told so far. -/
def Settled (s : σ) (t : Session Call) : Prop := A.Posted (A.told t) s t

/-- There are records for some of the items, the first ones, and work is broken off. -/
def BrokenOff (items : List ι) (s : σ) (t : Session Call) : Prop :=
  ∃ front, front <+: items ∧ List.Forall₂ A.Describes front t.records ∧ A.Breaks front s

/-- Work publishes records for `items`, and its calls tell of nothing. -/
def Publishes (m : Work σ Call Answer Nat) (items : List ι) : Prop :=
  ∀ done s t, A.Posted done s t →
    Work.Ensures A.world
      (fun s' t' => A.told t' = A.told t ∧ A.BrokenOff (done ++ items) s' t') m s t
      fun _ s' t' => A.told t' = A.told t ∧ A.Posted (done ++ items) s' t'

/-- An attempt settles the account again. -/
def Collects (m : Attempt σ Call Answer Nat) : Prop :=
  ∀ s t, A.Settled s t →
    Work.Ensures A.world (fun s' t' => A.BrokenOff (A.told t') s' t') m.run s t fun _ => A.Settled

variable {A}

theorem BrokenOff.mono {front items : List ι} {s : σ} {t : Session Call}
    (h : A.BrokenOff front s t) (hfront : front <+: items) : A.BrokenOff items s t := by
  obtain ⟨published, hpublished, hrest⟩ := h
  exact ⟨published, hpublished.trans hfront, hrest⟩

/-- One item after another. -/
theorem publishes_total {f : α → Work σ Call Answer Nat} {items : α → List ι} :
    ∀ {as : List α}, (∀ a ∈ as, A.Publishes (f a) (items a)) →
      A.Publishes (Work.total f as) (as.flatMap items)
  | [], _ => by
    intro done s t h
    refine Work.ensures_pure ⟨rfl, ?_⟩
    rwa [List.flatMap_nil, List.append_nil]
  | a :: as, hall => by
    intro done s t h
    rw [List.flatMap_cons, ← List.append_assoc]
    refine Work.ensures_bind (((hall a List.mem_cons_self done s t h).weaken ?_).mono ?_)
    · rintro s' t' ⟨htold, hbroken⟩
      exact ⟨htold, hbroken.mono (List.prefix_append _ _)⟩
    rintro n s' t' ⟨htold, h'⟩
    have hrest := publishes_total (fun b hb => hall b (List.mem_cons_of_mem _ hb)) _ s' t' h'
    refine Work.ensures_bind ((hrest.weaken ?_).mono ?_)
    · rintro s'' t'' ⟨htold', hbroken⟩
      exact ⟨htold'.trans htold, hbroken⟩
    rintro m s'' t'' ⟨htold', h''⟩
    exact Work.ensures_pure ⟨htold'.trans htold, h''⟩

/-- A call, and a record for each item that its answer tells of. -/
theorem collects_askTotal {c : Call} {as : Answer c → List α} {f : α → Work σ Call Answer Nat}
    (h : ∀ a, A.Publishes (Work.total f (as a)) (A.tell c a)) :
    A.Collects (do let a ← Work.ask c; Work.total f (as a)) := by
  intro s t hsettled
  have htold := t.told_ask A.world A.tell c
  have hrecords : (t.ask A.world c).2.records = t.records := Session.ask_records
  refine Work.ensures_askTotal (fun e he => ?_) fun a ha => ?_
  · rw [he, Session.tellings, List.append_nil] at htold
    refine ⟨?_, ?_⟩
    · rw [told, htold]
      exact hsettled.state
    · rw [told, htold, hrecords]
      exact hsettled.records
  · rw [ha, Session.tellings] at htold
    have hposted : A.Posted (A.told t) s (t.ask A.world c).2 :=
      ⟨hsettled.state, hrecords ▸ hsettled.records⟩
    refine ((h a _ s _ hposted).weaken ?_).mono ?_
    · rintro s' t' ⟨htold', hbroken⟩
      rwa [htold', told, htold]
    · rintro n s' t' ⟨htold', hposted'⟩
      rw [Settled, htold', told, htold]
      exact hposted'

theorem collects_totalAttempt {f : α → Attempt σ Call Answer Nat} {as : List α}
    (h : ∀ a, A.Collects (f a)) : A.Collects (Work.totalAttempt f as) := by
  intro s t hsettled
  refine (Work.ensures_totalAttempt (fun _ => A.Settled) A.Settled ?_ hsettled).mono ?_
  · rintro done a - s₁ t₁ h₁
    refine (h a s₁ t₁ h₁).mono fun r s₂ t₂ h₂ => ?_
    cases r <;> exact h₂
  · rintro r s' t' hr
    cases r <;> exact hr

theorem collects_scopes {collect : String → Attempt σ Call Answer Nat} {ps : List String}
    (h : ∀ p, A.Collects (collect p)) : A.Collects (Work.scopes collect ps) := by
  intro s t hsettled
  refine Work.ensures_scopes (fun _ => A.Settled) ?_ hsettled
  rintro done p - s₁ t₁ h₁
  exact (h p s₁ t₁ h₁).mono fun _ s₂ t₂ h₂ _ => ⟨h₂.state, h₂.records⟩

end Account

end CloudInventory
