import CloudInventory.Proofs.Program.Ensures
import Mathlib.Data.List.Forall2

/-!
Work that delivers a record for every one of some items, in their order: it ends, in whatever world
and whatever has happened before, and answers how many records it has published.
-/

namespace CloudInventory

variable {σ Call : Type} {Answer : Call → Type} {α ι : Type}

namespace Work

/-- Work ends, has published one record for each of the items, and answers how many they are. -/
def Delivers (w : World Call Answer) (Describes : ι → Record → Prop) (m : Work σ Call Answer Nat)
    (items : List ι) : Prop :=
  ∀ s t, Ensures w (fun _ _ => False) m s t fun n _ t' => ∃ new,
    t'.records = t.records ++ new ∧ n = new.length ∧ List.Forall₂ Describes items new

variable {w : World Call Answer} {Describes : ι → Record → Prop}

theorem delivers_nothing : Delivers w Describes (pure 0 : Work σ Call Answer Nat) [] :=
  fun _ _ => ensures_pure ⟨[], (List.append_nil _).symm, rfl, .nil⟩

theorem delivers_skip (type : AssetType) (field : String) :
    Delivers w Describes (Emitter.skip type field : Work σ Call Answer Nat) [] :=
  fun _ _ => ensures_skip fun _ => ⟨[], (List.append_nil _).symm, rfl, .nil⟩

theorem delivers_emit {e : Emitter} {type : AssetType} {id : String} {ps : List Patch} {i : ι}
    (h : Describes i (.compose e.stamp (Patch.typed type id e.space ++ ps))) :
    Delivers w Describes (do e.emit type id ps; return 1 : Work σ Call Answer Nat) [i] :=
  fun _ _ => ensures_bind (ensures_publish (ensures_pure ⟨[_], rfl, rfl, .cons h .nil⟩))

/-- One item after another. -/
theorem delivers_total {f : α → Work σ Call Answer Nat} {items : α → List ι} :
    ∀ {as : List α}, (∀ a ∈ as, Delivers w Describes (f a) (items a)) →
      Delivers w Describes (total f as) (as.flatMap items)
  | [], _ => delivers_nothing
  | a :: as, hall => by
    intro s t
    refine ensures_bind ((hall a List.mem_cons_self s t).mono ?_)
    rintro n s' t' ⟨front, hfront, rfl, hitems⟩
    have hrest := delivers_total (fun b hb => hall b (List.mem_cons_of_mem _ hb))
    refine ensures_bind ((hrest s' t').mono ?_)
    rintro m s'' t'' ⟨rest, hrest, rfl, hitems'⟩
    refine ensures_pure ⟨front ++ rest, ?_, List.length_append.symm, ?_⟩
    · rw [hrest, hfront, List.append_assoc]
    · rw [List.flatMap_cons]
      exact List.rel_append hitems hitems'

end Work

end CloudInventory
