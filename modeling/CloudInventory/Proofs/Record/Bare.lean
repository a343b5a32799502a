import CloudInventory.Record.Patch

/-!
Records without their edges. Patches other than those for parents and children do not look at the
edges of a record. So what a description says apart from edges is what its other patches say.
-/

namespace CloudInventory

/-- The patch sets an edge of a record. -/
def Patch.setsEdges : Patch → Bool
  | parents _ => true
  | children _ => true
  | _ => false

namespace Record

/-- A record without parents and children. -/
def bare (r : Record) : Record := { r with parents := [], children := [] }

theorem bare_apply_of_setsEdges {p : Patch} (h : p.setsEdges = true) (r : Record) :
    (p.apply r).bare = r.bare := by
  cases p <;> first | rfl | cases h

theorem bare_apply {p : Patch} (h : p.setsEdges = false) (r : Record) :
    (p.apply r).bare = p.apply r.bare := by
  cases p <;> first | rfl | cases h

theorem bare_foldl : ∀ (ps : List Patch) (r : Record),
    (ps.foldl Patch.apply r).bare = (ps.filter fun p => !p.setsEdges).foldl Patch.apply r.bare
  | [], _ => rfl
  | p :: ps, r => by
    rw [List.foldl_cons, bare_foldl ps]
    cases h : p.setsEdges with
    | true => rw [List.filter_cons_of_neg (by simp [h]), bare_apply_of_setsEdges h]
    | false => rw [List.filter_cons_of_pos (by simp [h]), List.foldl_cons, bare_apply h]

/-- Apart from edges a description says what its patches other than edges say. -/
theorem bare_compose (stamp : Instant) (ps : List Patch) :
    (compose stamp ps).bare = compose stamp (ps.filter fun p => !p.setsEdges) :=
  bare_foldl ps (blank stamp)

end Record

end CloudInventory
