import CloudInventory.Proofs.Program.Accounts
import Mathlib.Data.List.Forall2

/-!
Accounts of ids. The answers to calls tell of ids, and work publishes a record with each of them,
one after another. Work may also learn of ids first and publish their records later, so that between
the two the account is not settled.
-/

namespace CloudInventory

variable {σ Call : Type} {Answer : Call → Type} {α β : Type}

/-! ### The id of a record -/

namespace Patch

/-- The patch sets the id of a record. -/
def setsId : Patch → Bool
  | kindAndId _ _ => true
  | _ => false

theorem id_foldl : ∀ (ps : List Patch) (r : Record), (∀ p ∈ ps, p.setsId = false) →
    (ps.foldl apply r).id = r.id
  | [], _, _ => rfl
  | p :: ps, r, h => by
    obtain ⟨hp, hps⟩ := List.forall_mem_cons.1 h
    rw [List.foldl_cons, id_foldl ps _ hps]
    cases p <;> first | rfl | cases hp

/-- Further patches do not change the id. -/
theorem id_compose (stamp : Instant) (type : AssetType) (id : String) (space : Option String)
    {ps : List Patch} (h : ∀ p ∈ ps, p.setsId = false) :
    (Record.compose stamp (typed type id space ++ ps)).id = some id := by
  rw [Record.compose, List.foldl_append, id_foldl ps _ h]
  rfl

theorem setsId_maybeName (name : Option String) : ∀ p ∈ maybeName name, p.setsId = false := by
  rcases maybeName_cases name with h | ⟨s, h⟩ <;> simp [h, setsId]

/-- A patch for something that may be absent. -/
theorem setsId_optional {patch : α → Patch} (h : ∀ a, (patch a).setsId = false)
    (value : Option α) : ∀ p ∈ value.toList.map patch, p.setsId = false := by
  intro p hp
  obtain ⟨a, -, rfl⟩ := List.mem_map.1 hp
  exact h a

end Patch

/-! ### Accounts -/

namespace Account

/-- The account of the ids that answers tell of. Work never breaks off. -/
def ids (σ : Type) (w : World Call Answer) (tell : (c : Call) → Answer c → List String) :
    Account σ Call Answer String where
  world := w
  tell := tell
  State := fun _ _ => True
  Describes := fun id r => r.id = some id
  Breaks := fun _ _ => False

section Ids

variable {w : World Call Answer} {tell : (c : Call) → Answer c → List String}

theorem not_brokenOff_ids {front : List String} {s : σ} {t : Session Call} :
    ¬ (ids σ w tell).BrokenOff front s t := fun ⟨_, _, _, h⟩ => h

/-- Work that does nothing. -/
theorem publishes_ids_nothing :
    (ids σ w tell).Publishes (pure 0 : Work σ Call Answer Nat) [] := by
  intro done s t h
  refine Work.ensures_pure ⟨rfl, ?_⟩
  rwa [List.append_nil]

theorem publishes_ids_skip (type : AssetType) (field : String) :
    (ids σ w tell).Publishes (Emitter.skip type field) [] := by
  intro done s t h
  refine Work.ensures_skip fun warnings => ⟨rfl, ?_⟩
  rw [List.append_nil]
  exact ⟨trivial, h.records⟩

theorem publishes_ids_emit (e : Emitter) (type : AssetType) (id : String) {ps : List Patch}
    (hps : ∀ p ∈ ps, p.setsId = false) :
    (ids σ w tell).Publishes (do e.emit type id ps; return 1) [id] := by
  intro done s t h
  refine Work.ensures_bind (Work.ensures_publish (Work.ensures_pure ⟨rfl, trivial, ?_⟩))
  exact List.rel_append h.records (.cons (Patch.id_compose _ _ _ _ hps) .nil)

end Ids

/-! ### Learning -/

section Learning

variable {w : World Call Answer} {tell : (c : Call) → Answer c → List String}

/-- Work publishes nothing and ends, and `V` holds of its result together with the ids that its
calls tell of. -/
def Learns (w : World Call Answer) (tell : (c : Call) → Answer c → List String)
    (m : Work σ Call Answer α) (V : α → List String → Prop) : Prop :=
  ∀ s t, Work.Ensures w (fun _ _ => False) m s t fun a _ t' =>
    t'.records = t.records ∧ ∃ new, t'.told w tell = t.told w tell ++ new ∧ V a new

/-- Work publishes nothing and ends, and its calls tell of nothing. -/
abbrev LearnsNothing (w : World Call Answer) (tell : (c : Call) → Answer c → List String)
    (m : Work σ Call Answer α) : Prop := Learns w tell m fun _ new => new = []

theorem learns_pure {a : α} {V : α → List String → Prop} (h : V a []) :
    Learns w tell (pure a : Work σ Call Answer α) V :=
  fun _ _ => Work.ensures_pure ⟨rfl, [], (List.append_nil _).symm, h⟩

theorem learns_warn (m : Warning) :
    LearnsNothing w tell (Work.warn m : Work σ Call Answer Unit) :=
  fun _ _ => Work.ensures_warn ⟨rfl, [], (List.append_nil _).symm, rfl⟩

theorem learns_checkpoint :
    LearnsNothing w tell (Work.checkpoint : Attempt σ Call Answer Unit).run :=
  fun _ _ => Work.ensures_checkpoint fun _ => ⟨rfl, [], (List.append_nil _).symm, rfl⟩

theorem learns_ask (tell : (c : Call) → Answer c → List String) (c : Call) :
    Learns w tell (Work.ask c : Attempt σ Call Answer (Answer c)).run fun r new =>
      new = Session.tellings tell c r :=
  fun _ t => Work.ensures_ask ⟨Session.ask_records, _, t.told_ask w tell c, rfl⟩

/-- A call whose answer tells of nothing. -/
theorem learns_ask_nothing {c : Call} (h : ∀ a, tell c a = []) :
    LearnsNothing w tell (Work.ask c : Attempt σ Call Answer (Answer c)).run := by
  intro s t
  refine (learns_ask tell c s t).mono ?_
  rintro r s' t' ⟨hrecords, new, htold, rfl⟩
  refine ⟨hrecords, _, htold, ?_⟩
  cases r with
  | ok a => exact h a
  | error e => rfl

theorem Learns.bind {m : Work σ Call Answer α} {V : α → List String → Prop}
    (h : Learns w tell m V) {f : α → Work σ Call Answer β} {V' : β → List String → Prop}
    (hf : ∀ a front, V a front → Learns w tell (f a) fun b rest => V' b (front ++ rest)) :
    Learns w tell (m >>= f) V' := by
  intro s t
  refine Work.ensures_bind ((h s t).mono ?_)
  rintro a s' t' ⟨hrecords, front, htold, hV⟩
  refine (hf a front hV s' t').mono ?_
  rintro b s'' t'' ⟨hrecords', rest, htold', hV'⟩
  exact ⟨hrecords'.trans hrecords, front ++ rest, by rw [htold', htold, List.append_assoc], hV'⟩

/-- After work that learns nothing. -/
theorem Learns.then {m : Work σ Call Answer α} (h : LearnsNothing w tell m)
    {f : α → Work σ Call Answer β} {V : β → List String → Prop}
    (hf : ∀ a, Learns w tell (f a) V) : Learns w tell (m >>= f) V := by
  refine h.bind fun a front hfront => ?_
  subst hfront
  exact hf a

/-- An attempt that starts with one that learns nothing. -/
theorem Learns.attempt {m : Attempt σ Call Answer α} (h : LearnsNothing w tell m.run)
    {f : α → Attempt σ Call Answer β} (hf : ∀ a, LearnsNothing w tell (f a).run) :
    LearnsNothing w tell (m >>= f).run := by
  rw [ExceptT.run_bind]
  refine h.then fun r => ?_
  cases r with
  | ok a => exact hf a
  | error e => exact learns_pure rfl

/-- An attempt to find something out, and then to publish. -/
theorem collects_after {m : Attempt σ Call Answer α} (h : LearnsNothing w tell m.run)
    {f : α → Attempt σ Call Answer Nat} (hf : ∀ a, (ids σ w tell).Collects (f a)) :
    (ids σ w tell).Collects (m >>= f) := by
  intro s t hsettled
  refine Work.ensures_attempt (((h s t).weaken fun _ _ => False.elim).mono ?_)
  rintro r s' t' ⟨hrecords, new, htold, rfl⟩
  rw [List.append_nil] at htold
  have hsettled' : (ids σ w tell).Settled s' t' := by
    refine ⟨trivial, ?_⟩
    show List.Forall₂ _ (t'.told w tell) t'.records
    rw [htold, hrecords]
    exact hsettled.records
  cases r with
  | ok a => exact hf a s' t' hsettled'
  | error e => exact hsettled'

/-- Work that learns of ids, and then the records of these. -/
theorem collects_learnt {m : Work σ Call Answer α} {items : α → List String}
    (h : Learns w tell m fun a new => new = items a) {f : α → Work σ Call Answer Nat}
    (hf : ∀ a, (ids σ w tell).Publishes (f a) (items a)) :
    (ids σ w tell).Collects (do let a ← m; f a) := by
  intro s t hsettled
  refine Work.ensures_attempt (Work.ensures_lift (((h s t).weaken fun _ _ => False.elim).mono ?_))
  rintro a s' t' ⟨hrecords, new, htold, rfl⟩
  have hposted : (ids σ w tell).Posted (t.told w tell) s' t' :=
    ⟨trivial, hrecords ▸ hsettled.records⟩
  refine Work.ensures_lift (((hf a _ s' t' hposted).weaken ?_).mono ?_)
  · exact fun s'' t'' ht'' => absurd ht''.2 not_brokenOff_ids
  · rintro n s'' t'' ⟨htold', hposted'⟩
    show (ids σ w tell).Posted (t''.told w tell) s'' t''
    have hall : t''.told w tell = t.told w tell ++ items a := htold'.trans htold
    rw [hall]
    exact hposted'

end Learning

end Account

end CloudInventory
