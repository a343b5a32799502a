import CloudInventory.Record.Patch
import Mathlib.Logic.Basic

/-!
Names in records. A name reads back exactly when its id is not empty, whatever its kind and whatever
colons the id has. A record gets its names from patches: if all of these have ids, then so have the
record's own name and its parents; what the patches ensure of children is a parameter.
-/

namespace CloudInventory

/-! ### Reading names back -/

theorem AssetKind.not_mem_text (k : AssetKind) : ':' ∉ k.text.toList := by
  cases k <;> decide

namespace Ean

/-- The text of a name is read as that name. -/
def Reads (e : Ean) : Prop := read e.text = .ok e

theorem cut_text (e : Ean) : Text.cut ':' e.text = some (e.kind.text, e.id) := by
  have htext : e.text.toList = e.kind.text.toList ++ ':' :: e.id.toList := by
    simp [text, String.toList_append]
  rw [Text.cut, htext, Text.cutOf_append _ e.kind.not_mem_text]
  simp

theorem reads_iff {e : Ean} : e.Reads ↔ e.id ≠ "" := by
  rw [Reads, read, e.cut_text]
  simp only [AssetKind.ofText?_text]
  split
  case isTrue hid => exact iff_of_false (fun h => nomatch h) fun hne => hne hid
  case isFalse hid => exact iff_of_true rfl hid

/-- Names have ids. -/
def HaveIds (eans : List Ean) : Prop := ∀ e ∈ eans, e.id ≠ ""

theorem haveIds_nil : HaveIds [] := fun _ he => absurd he List.not_mem_nil

theorem haveIds_singleton {e : Ean} (h : e.id ≠ "") : HaveIds [e] := fun _ he =>
  List.mem_singleton.1 he ▸ h

/-- Names read back exactly when they have ids. -/
theorem forall_reads_iff {eans : List Ean} : (∀ e ∈ eans, e.Reads) ↔ HaveIds eans :=
  forall₂_congr fun _ _ => reads_iff

end Ean

/-! ### Names from patches -/

/-- The names that a patch sets have ids; of children, `C` holds. -/
def Patch.Names (C : List Ean → Prop) : Patch → Prop
  | .kindAndId _ id => id ≠ ""
  | .parents eans => Ean.HaveIds eans
  | .children eans => C eans
  | _ => True

namespace Record

/-- A record has a name with an id, which is that of the record, and so have its parents; of its
children, `C` holds. -/
structure Named (C : List Ean → Prop) (r : Record) : Prop where
  own : ∃ e, r.ean = some e ∧ r.id = some e.id ∧ e.id ≠ ""
  parents : Ean.HaveIds r.parents
  children : C r.children

variable {C : List Ean → Prop} {r : Record}

theorem Named.apply (h : r.Named C) {p : Patch} (hp : p.Names C) : (p.apply r).Named C := by
  cases p with
  | kindAndId kind id => exact ⟨⟨⟨kind, id⟩, rfl, rfl, hp⟩, h.parents, h.children⟩
  | parents eans => exact ⟨h.own, hp, h.children⟩
  | children eans => exact ⟨h.own, h.parents, hp⟩
  | _ => exact ⟨h.own, h.parents, h.children⟩

theorem Named.foldl {ps : List Patch} (h : r.Named C) (hps : ∀ p ∈ ps, p.Names C) :
    (ps.foldl Patch.apply r).Named C := by
  induction ps generalizing r with
  | nil => exact h
  | cons p ps ih =>
    obtain ⟨hp, hrest⟩ := List.forall_mem_cons.1 hps
    exact ih (h.apply hp) hrest

/-- Patches whose names have ids describe a record whose names have ids. -/
theorem named_compose (stamp : Instant) (type : AssetType) {id : String} (space : Option String)
    {ps : List Patch} (hid : id ≠ "") (hnone : C []) (hps : ∀ p ∈ ps, p.Names C) :
    (compose stamp (Patch.typed type id space ++ ps)).Named C := by
  rw [compose, List.foldl_append]
  exact Named.foldl ⟨⟨⟨type.kind, id⟩, rfl, rfl, hid⟩, Ean.haveIds_nil, hnone⟩ hps

end Record

namespace Patch

variable {C : List Ean → Prop}

theorem names_maybeName (name : Option String) : ∀ p ∈ maybeName name, p.Names C := by
  rcases maybeName_cases name with h | ⟨s, h⟩ <;> simp [h, Names]

/-- A patch for something that may be absent. -/
theorem names_optional {α : Type} {patch : α → Patch} {value : Option α}
    (h : ∀ a ∈ value, (patch a).Names C) : ∀ p ∈ value.toList.map patch, p.Names C := by
  intro p hp
  obtain ⟨a, ha, rfl⟩ := List.mem_map.1 hp
  exact h a (Option.mem_toList.1 ha)

end Patch

end CloudInventory
