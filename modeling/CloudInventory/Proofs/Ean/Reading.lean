import CloudInventory.Proofs.Record.Names
import CloudInventory.Proofs.Text.Fields

/-!
Reading and writing names. A text is cut at its first colon: before it stands the text of a kind and
behind it the id, which is not empty and may hold colons. A text without a colon, one whose front is
no kind, and one without an id are told apart in this order. The main statement says that reading is
the inverse of writing on names with ids, and that writing loses nothing even of those without.
-/

namespace CloudInventory

/-! ### Kinds -/

namespace AssetKind

/-- The texts of the kinds. -/
def texts : List String := ["host", "network", "cluster", "container_group", "container"]

theorem ofText?_eq_some_iff {s : String} {k : AssetKind} : ofText? s = some k ↔ s = k.text := by
  constructor
  · intro h
    have hfound : decide (k.text = s) = true :=
      List.find?_some (p := fun k : AssetKind => decide (k.text = s)) h
    exact (of_decide_eq_true hfound).symm
  · rintro rfl
    exact ofText?_text k

theorem mem_texts_iff {s : String} : s ∈ texts ↔ ∃ k : AssetKind, s = k.text := by
  have htexts : texts = all.map text := rfl
  have hall (k : AssetKind) : k ∈ all := by cases k <;> decide
  rw [htexts, List.mem_map]
  exact ⟨fun ⟨k, _, hk⟩ => ⟨k, hk.symm⟩, fun ⟨k, hk⟩ => ⟨k, hall k, hk.symm⟩⟩

theorem ofText?_eq_none_iff {s : String} : ofText? s = none ↔ s ∉ texts := by
  rw [mem_texts_iff, Option.eq_none_iff_forall_ne_some, not_exists]
  exact forall_congr' fun k => not_congr ofText?_eq_some_iff

end AssetKind

/-! ### Names -/

namespace Ean

/-- What a text says: there are three ways to be no name. -/
inductive Says : String → Except Fault Ean → Prop where
  | missingSeparator {s : String} (h : ':' ∉ s.toList) : Says s (.error .missingSeparator)
  | unknownKind {kind : String} (hkind : kind ∉ AssetKind.texts) (hcolon : ':' ∉ kind.toList)
      (rest : String) : Says (kind ++ ":" ++ rest) (.error (.unknownKind kind))
  | emptyId (kind : AssetKind) : Says (text ⟨kind, ""⟩) (.error .emptyId)
  | name {e : Ean} (hid : e.id ≠ "") : Says e.text (.ok e)

theorem says_read (s : String) : Says s (read s) := by
  rw [read]
  split
  case h_1 hcut => exact .missingSeparator (Text.cut_eq_none_iff.1 hcut)
  case h_2 front rest hcut =>
    obtain ⟨rfl, hfront⟩ := Text.cut_eq_some_iff.1 hcut
    split
    case h_1 hnone => exact .unknownKind (AssetKind.ofText?_eq_none_iff.1 hnone) hfront rest
    case h_2 kind hkind =>
      obtain rfl := AssetKind.ofText?_eq_some_iff.1 hkind
      split
      case isTrue hrest =>
        subst hrest
        exact .emptyId kind
      case isFalse hrest => exact .name (e := ⟨kind, rest⟩) hrest

/-- A text that is read says just what it is read as. -/
theorem read_eq_iff {s : String} {r : Except Fault Ean} : read s = r ↔ Says s r := by
  constructor
  · rintro rfl
    exact says_read s
  · intro h
    cases h with
    | missingSeparator h => rw [read, Text.cut_eq_none_iff.2 h]
    | @unknownKind kind hkind hcolon rest =>
      have hcut : Text.cut ':' (kind ++ ":" ++ rest) = some (kind, rest) :=
        Text.cut_eq_some_iff.2 ⟨rfl, hcolon⟩
      rw [read, hcut]
      simp only [AssetKind.ofText?_eq_none_iff.2 hkind]
    | emptyId kind =>
      rw [read, cut_text]
      simp [AssetKind.ofText?_text]
    | name hid => exact reads_iff.2 hid

theorem text_injective {e e' : Ean} (h : e.text = e'.text) : e = e' := by
  have hcut : some (e.kind.text, e.id) = some (e'.kind.text, e'.id) := by
    rw [← e.cut_text, h, e'.cut_text]
  obtain ⟨hkind, hid⟩ := Prod.mk.inj (Option.some.inj hcut)
  have hkinds : some e.kind = some e'.kind := by
    rw [← AssetKind.ofText?_text, hkind, AssetKind.ofText?_text]
  cases e
  cases e'
  simp_all

/-- A text is read as a name exactly when it is the text of that name and the name has an id. -/
theorem read_eq_ok_iff {s : String} {e : Ean} : read s = .ok e ↔ s = e.text ∧ e.id ≠ "" := by
  rw [read_eq_iff]
  constructor
  · rintro ⟨⟩
    case name hid => exact ⟨rfl, hid⟩
  · rintro ⟨rfl, hid⟩
    exact .name hid

theorem decode?_eq_some_iff {t : Term} {e : Ean} :
    decode? t = some e ↔ ∃ s, t = .str s ∧ read s = .ok e := by
  have hread (s : String) : (read s).toOption = some e ↔ read s = .ok e := by
    cases read s <;> simp [Except.toOption]
  cases t with
  | str s => simpa [decode?, Term.text?] using hread s
  | _ => simp [decode?, Term.text?]

/-- CORRECT: a text is read as a name if and only if it is the text of a kind, a colon and an id
that is not empty, and it is then the text of that name. Of other texts, those without a colon lack
the separator, those that have no kind before the first colon have an unknown one, and what is left
are the kinds with a colon and no id. A name is read back from its text exactly when it has an id.
Different names have different texts, with ids or without, and in JSON a name is a string that is
read as one. -/
theorem read_exact :
    (∀ s e, read s = .ok e ↔ s = e.text ∧ e.id ≠ "") ∧
    (∀ s, (∃ e, read s = .ok e) ↔
      ∃ kind ∈ AssetKind.texts, ∃ id, id ≠ "" ∧ s = kind ++ ":" ++ id) ∧
    (∀ s, read s = .error .missingSeparator ↔ ':' ∉ s.toList) ∧
    (∀ s kind, read s = .error (.unknownKind kind) ↔
      kind ∉ AssetKind.texts ∧ ':' ∉ kind.toList ∧ ∃ rest, s = kind ++ ":" ++ rest) ∧
    (∀ s, read s = .error .emptyId ↔ ∃ kind ∈ AssetKind.texts, s = kind ++ ":") ∧
    (∀ e e' : Ean, read e.text = .ok e' ↔ e' = e ∧ e.id ≠ "") ∧
    (∀ e e' : Ean, e.text = e'.text → e.kind = e'.kind ∧ e.id = e'.id) ∧
    (∀ t e, decode? t = some e ↔ ∃ s, t = .str s ∧ read s = .ok e) := by
  refine ⟨fun _ _ => read_eq_ok_iff, fun s => ⟨?_, ?_⟩, fun s => ?_, fun s kind => ?_,
    fun s => ?_, fun e e' => ⟨?_, ?_⟩, fun e e' h => ?_, fun _ _ => decode?_eq_some_iff⟩
  · rintro ⟨e, he⟩
    obtain ⟨rfl, hid⟩ := read_eq_ok_iff.1 he
    exact ⟨e.kind.text, AssetKind.mem_texts_iff.2 ⟨e.kind, rfl⟩, e.id, hid, rfl⟩
  · rintro ⟨kind, hkind, id, hid, rfl⟩
    obtain ⟨k, rfl⟩ := AssetKind.mem_texts_iff.1 hkind
    exact ⟨⟨k, id⟩, read_eq_ok_iff.2 ⟨rfl, hid⟩⟩
  · rw [read_eq_iff]
    constructor
    · rintro ⟨⟩
      case missingSeparator h => exact h
    · exact .missingSeparator
  · rw [read_eq_iff]
    constructor
    · rintro ⟨⟩
      case unknownKind rest hkind hcolon => exact ⟨hkind, hcolon, rest, rfl⟩
    · rintro ⟨hkind, hcolon, rest, rfl⟩
      exact .unknownKind hkind hcolon rest
  · rw [read_eq_iff]
    constructor
    · rintro ⟨⟩
      case emptyId kind =>
        exact ⟨kind.text, AssetKind.mem_texts_iff.2 ⟨kind, rfl⟩, String.append_empty⟩
    · rintro ⟨kind, hkind, rfl⟩
      obtain ⟨k, rfl⟩ := AssetKind.mem_texts_iff.1 hkind
      have htext : k.text ++ ":" = text ⟨k, ""⟩ := String.append_empty.symm
      exact htext ▸ .emptyId k
  · intro h
    obtain ⟨htext, hid⟩ := read_eq_ok_iff.1 h
    obtain rfl := text_injective htext
    exact ⟨rfl, hid⟩
  · rintro ⟨rfl, hid⟩
    exact read_eq_ok_iff.2 ⟨rfl, hid⟩
  · obtain rfl := text_injective h
    exact ⟨rfl, rfl⟩

end Ean

end CloudInventory
