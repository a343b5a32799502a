import CloudInventory.Collector
import CloudInventory.Proofs.Program.Accounts

/-!
Items in a series. Answers to calls tell of items, and work publishes them one after another, up to
the first one at which it breaks off. What it has published is told by the answers alone: the
records of the items before that one, or of all items if there is none; and so is what it has done
to its state, where the item at which it breaks off counts as well. In this a series differs from an
account, which only says that the records are those of the first few items. The calls are the same
whatever is made of their answers, and so it can be said what becomes of a series of which only some
items are wanted.
-/

namespace CloudInventory

variable {σ Call : Type} {Answer : Call → Type} {α ι : Type}

/-! ### Calls -/

namespace Session

/-- In both the same calls have been made, and shutdown has been signalled in both or in none. -/
structure Abreast (t t' : Session Call) : Prop where
  calls : t.calls = t'.calls
  cancelled : t.cancelled = t'.cancelled

/-- What has happened when calls have been made one after another, and nothing else. -/
def asking (w : World Call Answer) (cs : List Call) (t : Session Call) : Session Call :=
  cs.foldl (fun t c => (t.ask w c).2) t

variable {w : World Call Answer} {tell : (c : Call) → Answer c → List ι} {t t' t'' : Session Call}

theorem Abreast.refl (t : Session Call) : t.Abreast t := ⟨rfl, rfl⟩

theorem Abreast.trans (h : t.Abreast t') (h' : t'.Abreast t'') : t.Abreast t'' :=
  ⟨h.calls.trans h'.calls, h.cancelled.trans h'.cancelled⟩

theorem Abreast.ask (h : t.Abreast t') (c : Call) :
    (t.ask w c).1 = (t'.ask w c).1 ∧ (t.ask w c).2.Abreast (t'.ask w c).2 := by
  obtain ⟨cancelled, calls, records, warnings⟩ := t
  obtain ⟨cancelled', calls', records', warnings'⟩ := t'
  obtain ⟨rfl, rfl⟩ := h
  unfold Session.ask
  dsimp only
  split
  · exact ⟨rfl, rfl, rfl⟩
  · split <;> exact ⟨rfl, rfl, rfl⟩

theorem Abreast.told (h : t.Abreast t') : t.told w tell = t'.told w tell := by
  rw [Session.told, h.calls, Session.told]

theorem asking_concat (cs : List Call) (c : Call) :
    t.asking w (cs ++ [c]) = ((t.asking w cs).ask w c).2 := by
  rw [asking, List.foldl_append]
  rfl

/-- More calls tell of more. -/
theorem told_prefix_asking : ∀ (cs : List Call) (t : Session Call),
    t.told w tell <+: (t.asking w cs).told w tell
  | [], _ => List.prefix_rfl
  | c :: cs, t => by
    refine List.IsPrefix.trans ?_ (told_prefix_asking cs (t.ask w c).2)
    rw [told_ask]
    exact List.prefix_append _ _

theorem told_asking_mono {cs cs' : List Call} (h : cs <+: cs') :
    (t.asking w cs).told w tell <+: (t.asking w cs').told w tell := by
  obtain ⟨rest, rfl⟩ := h
  rw [asking, asking, List.foldl_append]
  exact told_prefix_asking rest _

/-- What answers tell of that is wanted. -/
theorem told_filter (p : ι → Bool) (t : Session Call) :
    t.told w (fun c a => (tell c a).filter p) = (t.told w tell).filter p := by
  have hat (k : Nat) (c : Call) :
      toldAt w (fun c a => (tell c a).filter p) k c = (toldAt w tell k c).filter p := by
    unfold toldAt tellings
    split
    · rfl
    · split <;> rfl
  simp only [told, hat, List.filter_flatMap]

end Session

/-! ### Series -/

/-- What becomes of items that work publishes one after another in a world. -/
structure Series (σ Call : Type) (Answer : Call → Type) (ι : Type) where
  world : World Call Answer
  /-- The items that an answer tells of. -/
  tell : (c : Call) → Answer c → List ι
  record : ι → Record
  /-- Work breaks off at an item. -/
  stops : ι → Bool
  /-- What holds of the state when work has come to some items, whether or not it breaks off at the
  last one. -/
  State : List ι → σ → Prop

namespace Series

variable (A : Series σ Call Answer ι)

/-- The items that have been told of. -/
def told (t : Session Call) : List ι := t.told A.world A.tell

/-- The items before the first one at which work breaks off. -/
def front (items : List ι) : List ι := items.takeWhile fun i => !A.stops i

/-- The items `done` have been published, and no others. -/
structure Passed (done : List ι) (s : σ) (t : Session Call) : Prop where
  state : A.State done s
  records : t.records = done.map A.record
  clear : ∀ i ∈ done, A.stops i = false

/-- Work has broken off at one of the items, and those before it have been published. -/
def Stopped (items : List ι) (s : σ) (t : Session Call) : Prop :=
  ∃ done i, done ++ [i] <+: items ∧ (∀ j ∈ done, A.stops j = false) ∧ A.stops i = true ∧
    t.records = done.map A.record ∧ A.State (done ++ [i]) s

/-- Work publishes items up to the first one at which it breaks off, and calls for nothing. -/
def Publishes (m : Work σ Call Answer Nat) (items : List ι) : Prop :=
  ∀ done s t, A.Passed done s t →
    Work.Ensures A.world (A.Stopped (done ++ items)) m s t fun _ s' t' =>
      t'.Abreast t ∧ A.Passed (done ++ items) s' t'

/-- An attempt makes one call, and publishes the items that its answer tells of. -/
def Collects (m : Attempt σ Call Answer Nat) (c : Call) : Prop :=
  ∀ s t, A.Passed (A.told t) s t →
    Work.Ensures A.world (A.Stopped (A.told (t.ask A.world c).2)) m.run s t fun _ s' t' =>
      t'.Abreast (t.ask A.world c).2 ∧ A.Passed (A.told t') s' t'

/-- The series of the items that are wanted. -/
def only (p : ι → Bool) : Series σ Call Answer ι :=
  { A with tell := fun c a => (A.tell c a).filter p }

variable {A}

theorem told_only (p : ι → Bool) (t : Session Call) :
    (A.only p).told t = (A.told t).filter p :=
  Session.told_filter p t

theorem front_append {done items : List ι} (h : ∀ i ∈ done, A.stops i = false) :
    A.front (done ++ items) = done ++ A.front items :=
  List.takeWhile_append_of_pos fun i hi => by simp [h i hi]

theorem front_eq_self {items : List ι} (h : ∀ i ∈ items, A.stops i = false) :
    A.front items = items := by
  rw [← List.append_nil items, front_append h]
  rfl

theorem Stopped.mono {items items' : List ι} {s : σ} {t : Session Call} (h : A.Stopped items s t)
    (hinitial : items <+: items') : A.Stopped items' s t := by
  obtain ⟨done, i, hdone, hrest⟩ := h
  exact ⟨done, i, hdone.trans hinitial, hrest⟩

/-- The items before one at which work breaks off, if it breaks off at none of these. -/
theorem front_of_stops {done rest : List ι} {i : ι} (hclear : ∀ j ∈ done, A.stops j = false)
    (hstops : A.stops i = true) : A.front (done ++ i :: rest) = done := by
  rw [front_append hclear, Series.front, List.takeWhile_cons_of_neg (by simp [hstops]),
    List.append_nil]

theorem passed_nil {s : σ} {t : Session Call} (hstate : A.State [] s) (hrecords : t.records = []) :
    A.Passed [] s t :=
  ⟨hstate, hrecords, fun _ h => absurd h List.not_mem_nil⟩

/-! ### Publishing -/

theorem publishes_skip (type : AssetType) (field : String) :
    A.Publishes (Emitter.skip type field) [] := by
  intro done s t h
  refine Work.ensures_skip fun warnings => ⟨⟨rfl, rfl⟩, ?_⟩
  rw [List.append_nil]
  exact ⟨h.state, h.records, h.clear⟩

/-- An item at which work breaks off. -/
theorem stopped_concat {done : List ι} {i : ι} {s s' : σ} {t : Session Call}
    (h : A.Passed done s t) (hstops : A.stops i = true) (hstate : A.State (done ++ [i]) s') :
    A.Stopped (done ++ [i]) s' t :=
  ⟨done, i, List.prefix_rfl, h.clear, hstops, h.records, hstate⟩

/-- An item that is published. -/
theorem passed_concat {done : List ι} {i : ι} {s s' : σ} {t : Session Call}
    (h : A.Passed done s t) (hclear : A.stops i = false) (hstate : A.State (done ++ [i]) s') :
    A.Passed (done ++ [i]) s' { t with records := t.records ++ [A.record i] } := by
  refine ⟨hstate, ?_, ?_⟩
  · rw [h.records, List.map_append]
    rfl
  · rintro j hj
    rcases List.mem_append.1 hj with hj | hj
    · exact h.clear j hj
    · exact List.mem_singleton.1 hj ▸ hclear

theorem publishes_total {f : α → Work σ Call Answer Nat} {items : α → List ι} :
    ∀ {as : List α}, (∀ a ∈ as, A.Publishes (f a) (items a)) →
      A.Publishes (Work.total f as) (as.flatMap items)
  | [], _ => by
    intro done s t h
    refine Work.ensures_pure ⟨.refl t, ?_⟩
    rwa [List.flatMap_nil, List.append_nil]
  | a :: as, hall => by
    intro done s t h
    rw [List.flatMap_cons, ← List.append_assoc]
    refine Work.ensures_bind (((hall a List.mem_cons_self done s t h).weaken ?_).mono ?_)
    · exact fun s' t' hstopped => hstopped.mono (List.prefix_append _ _)
    rintro n s' t' ⟨habreast, h'⟩
    have hrest := publishes_total (fun b hb => hall b (List.mem_cons_of_mem _ hb)) _ s' t' h'
    refine Work.ensures_bind (hrest.mono ?_)
    rintro m s'' t'' ⟨habreast', h''⟩
    exact Work.ensures_pure ⟨habreast'.trans habreast, h''⟩

/-! ### Collecting -/

theorem collects_askTotal {c : Call} {as : Answer c → List α} {f : α → Work σ Call Answer Nat}
    (h : ∀ a, A.Publishes (Work.total f (as a)) (A.tell c a)) :
    A.Collects (do let a ← Work.ask c; Work.total f (as a)) c := by
  intro s t hpassed
  have htold := t.told_ask A.world A.tell c
  have hrecords : (t.ask A.world c).2.records = t.records := Session.ask_records
  refine Work.ensures_askTotal (fun e he => ?_) fun a ha => ?_
  · refine ⟨.refl _, ?_⟩
    rw [he, Session.tellings, List.append_nil] at htold
    rw [told, htold]
    exact ⟨hpassed.state, hrecords.trans hpassed.records, hpassed.clear⟩
  · rw [ha, Session.tellings] at htold
    have hpassed' : A.Passed (A.told t) s (t.ask A.world c).2 :=
      ⟨hpassed.state, hrecords.trans hpassed.records, hpassed.clear⟩
    refine ((h a _ s _ hpassed').weaken ?_).mono ?_
    · rintro s' t' hstopped
      rwa [told, htold]
    · rintro n s' t' ⟨habreast, hpassed''⟩
      refine ⟨habreast, ?_⟩
      rwa [told, habreast.told, htold]

/-- What else answers tell of does not matter to publishing. -/
theorem Publishes.only {m : Work σ Call Answer Nat} {items : List ι} (h : A.Publishes m items)
    (p : ι → Bool) : (A.only p).Publishes m items := by
  intro done s t hpassed
  refine (h done s t ⟨hpassed.state, hpassed.records, hpassed.clear⟩).mono ?_
  rintro n s' t' ⟨habreast, hpassed'⟩
  exact ⟨habreast, hpassed'.state, hpassed'.records, hpassed'.clear⟩

/-- Wanted parts of an answer have wanted items, and all that are told of. -/
theorem filter_flatMap {find : α → List ι} {wants : α → Bool} {p : ι → Bool}
    (h : ∀ a, ∀ i ∈ find a, p i = wants a) (as : List α) :
    (as.flatMap find).filter p = (as.filter wants).flatMap find := by
  induction as with
  | nil => rfl
  | cons a as ih =>
    rw [List.flatMap_cons, List.filter_append, ih, List.filter_cons]
    split
    case isTrue hwants =>
      rw [List.flatMap_cons, List.filter_eq_self.2 fun i hi => (h a i hi).trans hwants]
    case isFalse hwants =>
      rw [List.filter_eq_nil_iff.2 fun i hi => by rwa [h a i hi], List.nil_append]

/-- A call, and work on those parts of its answer that are wanted. -/
theorem collects_wanted {c : Call} {as : Answer c → List α} {f : α → Work σ Call Answer Nat}
    {wants : α → Bool} {p : ι → Bool} (find : α → List ι)
    (htell : ∀ a, A.tell c a = (as a).flatMap find) (hp : ∀ a, ∀ i ∈ find a, p i = wants a)
    (hf : ∀ a, A.Publishes (f a) (find a)) :
    (A.only p).Collects (do let a ← Work.ask c; Work.total f ((as a).filter wants)) c := by
  refine collects_askTotal fun a => ?_
  show (A.only p).Publishes _ ((A.tell c a).filter p)
  rw [htell, filter_flatMap hp]
  exact publishes_total fun b _ => (hf b).only p

/-- Scopes in turn, each with a call of its own. -/
theorem ensures_scopes {collect : String → Attempt σ Call Answer Nat} {call : String → Call}
    (h : ∀ p, A.Collects (collect p) (call p)) {s : σ} {t : Session Call}
    (hstart : A.Passed (A.told t) s t) (ps : List String) :
    Work.Ensures A.world (A.Stopped (A.told (t.asking A.world (ps.map call))))
      (Work.scopes collect ps).run s t fun _ =>
        A.Passed (A.told (t.asking A.world (ps.map call))) := by
  let calling (done : List String) : Session Call := t.asking A.world (done.map call)
  -- the calls of the scopes done so far have been made and no others, and all is published that
  -- they tell of
  refine (Work.ensures_scopes (fun done s' t' => t'.Abreast (calling done) ∧
    A.Passed (A.told t') s' t') ?_ ⟨.refl t, hstart⟩).mono ?_
  · rintro done p hinitial s₁ t₁ ⟨habreast, hpassed⟩
    have hnext : (t₁.ask A.world (call p)).2.Abreast (calling (done ++ [p])) := by
      show Session.Abreast _ (t.asking A.world ((done ++ [p]).map call))
      rw [List.map_append, List.map_singleton, Session.asking_concat]
      exact (habreast.ask (call p)).2
    refine ((h p s₁ t₁ hpassed).weaken ?_).mono ?_
    · intro s' t' hstopped
      refine hstopped.mono ?_
      rw [told, hnext.told]
      exact Session.told_asking_mono (hinitial.map call)
    · rintro _ s' t' ⟨habreast', hpassed'⟩ warnings
      have hwarned : ({ t' with warnings } : Session Call).Abreast t' := ⟨rfl, rfl⟩
      refine ⟨hwarned.trans (habreast'.trans hnext), ?_⟩
      rw [told, hwarned.told]
      exact ⟨hpassed'.state, hpassed'.records, hpassed'.clear⟩
  · rintro _ s' t' ⟨habreast, hpassed⟩
    rwa [told, habreast.told] at hpassed

/-! ### Jobs -/

/-- A job has come to the items of a series and left some state: either it has broken off at the
first item that stops it, or it has gone through all of them. -/
structure Reports (A : Series σ Call Answer ι) (ended : JobReport × σ × Bool)
    (items : List ι) : Prop where
  records : ended.1.records = (A.front items).map A.record
  ends : (∃ i rest, items = A.front items ++ i :: rest ∧ A.stops i = true ∧
        ended.1.outcome = .panic ∧ A.State (A.front items ++ [i]) ended.2.1) ∨
    (∀ i ∈ items, A.stops i = false) ∧ ended.1.outcome ≠ .panic ∧ A.State items ended.2.1

theorem report {j : Job σ Call Answer} {s : σ} {cancelled : Bool} {items : List ι}
    (words : Call → List String)
    (h : Work.Ensures A.world (A.Stopped items) j.work.run s (.start cancelled) fun _ =>
      A.Passed items) : A.Reports (j.report A.world words s cancelled) items := by
  obtain ⟨left, t', hrun, done, i, ⟨rest, rfl⟩, hclear, hstops, hrecords, hstate⟩ |
    ⟨result, s', t', hrun, hpassed⟩ := h.ends
  · rw [Job.report_of_brokenOff hrun]
    have hfront : A.front (done ++ [i] ++ rest) = done := by
      rw [List.append_assoc]
      exact front_of_stops hclear hstops
    refine ⟨by rw [hfront]; exact hrecords, .inl ⟨i, rest, ?_, hstops, rfl, ?_⟩⟩
    · rw [hfront, List.append_assoc]
      rfl
    · rw [hfront]
      exact hstate
  · rw [Job.report_of_result hrun]
    refine ⟨?_, .inr ⟨hpassed.clear, ?_, hpassed.state⟩⟩
    · rw [front_eq_self hpassed.clear]
      exact hpassed.records
    · cases result <;> simp [Outcome.ofResult]

end Series

end CloudInventory
