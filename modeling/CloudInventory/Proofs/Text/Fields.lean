import CloudInventory.Text.Blank
import CloudInventory.Text.Split
import Mathlib.Data.List.Basic
import Mathlib.Data.List.TakeWhile

/-!
Pieces of texts, and cuts. A text that is put together with a separator falls into the pieces of its
parts, and one without a separator is a single piece. The pieces hold all that is not a separator,
and are joined to the text again. Trimming leaves something of each that is not all blank.
-/

namespace CloudInventory.Text

theorem fieldsOf_append (sep : Char) (b : List Char) : ∀ a : List Char,
    fieldsOf sep (a ++ sep :: b) = fieldsOf sep a ++ fieldsOf sep b
  | [] => by simp [fieldsOf]
  | c :: a => by
    rw [List.cons_append, fieldsOf, fieldsOf, fieldsOf_append sep b a]
    split
    · rfl
    · cases h : fieldsOf sep a with
      | nil => exact absurd h (fieldsOf_ne_nil sep a)
      | cons piece pieces => rfl

theorem fieldsOf_of_not_mem {sep : Char} : ∀ {a : List Char}, sep ∉ a → fieldsOf sep a = [a]
  | [], _ => rfl
  | c :: a, h => by
    obtain ⟨hc, ha⟩ : ¬ sep = c ∧ sep ∉ a := not_or.1 fun hor => h (List.mem_cons.2 hor)
    rw [fieldsOf, if_neg (Ne.symm hc), fieldsOf_of_not_mem ha]

/-- The pieces hold all characters but the separators. -/
theorem flatten_fieldsOf (sep : Char) : ∀ cs : List Char,
    (fieldsOf sep cs).flatten = cs.filter (· ≠ sep)
  | [] => rfl
  | c :: cs => by
    have ih := flatten_fieldsOf sep cs
    rw [fieldsOf]
    split
    case isTrue hc => simp [ih, hc]
    case isFalse hc =>
      split
      case h_1 hnil => exact absurd hnil (fieldsOf_ne_nil sep cs)
      case h_2 piece pieces hpieces =>
        rw [hpieces, List.flatten_cons] at ih
        rw [List.flatten_cons, List.cons_append, ih]
        simp [hc]

theorem fields_append (sep : Char) (s t : String) :
    fields sep (s ++ String.singleton sep ++ t) = fields sep s ++ fields sep t := by
  have hlist : (s ++ String.singleton sep ++ t).toList = s.toList ++ sep :: t.toList := by simp
  rw [fields, hlist, fieldsOf_append, List.map_append, fields, fields]

theorem fields_of_not_mem {sep : Char} {s : String} (h : sep ∉ s.toList) : fields sep s = [s] := by
  rw [fields, fieldsOf_of_not_mem h, List.map_singleton, String.ofList_toList]

/-- A piece has characters of the text, but no separator. -/
theorem mem_of_mem_field {sep c : Char} {s piece : String} (h : piece ∈ fields sep s)
    (hc : c ∈ piece.toList) : c ∈ s.toList ∧ c ≠ sep := by
  obtain ⟨cs, hcs, rfl⟩ := List.mem_map.1 h
  rw [String.toList_ofList] at hc
  have hflatten : c ∈ (fieldsOf sep s.toList).flatten := List.mem_flatten_of_mem hcs hc
  rw [flatten_fieldsOf, List.mem_filter] at hflatten
  exact ⟨hflatten.1, of_decide_eq_true hflatten.2⟩

theorem fields_ne_nil (sep : Char) (s : String) : fields sep s ≠ [] := by
  rw [fields, Ne, List.map_eq_nil_iff]
  exact fieldsOf_ne_nil sep s.toList

theorem joined_cons {sep : String} (t : String) {ts : List String} (h : ts ≠ []) :
    joined sep (t :: ts) = t ++ sep ++ joined sep ts := by
  cases ts with
  | nil => exact absurd rfl h
  | cons u ts => rfl

/-- Texts that are joined fall into the pieces of all of them. -/
theorem fields_joined (sep : Char) : ∀ {ts : List String}, ts ≠ [] →
    fields sep (joined (String.singleton sep) ts) = ts.flatMap (fields sep)
  | [t], _ => by simp [joined]
  | t :: u :: ts, _ => by
    rw [joined_cons t (List.cons_ne_nil u ts), fields_append,
      fields_joined sep (List.cons_ne_nil u ts)]
    rfl

/-- The pieces of a text are joined to the text again. -/
theorem joined_fields (sep : Char) (s : String) :
    joined (String.singleton sep) (fields sep s) = s := by
  have hlist : ∀ cs : List Char, joined (String.singleton sep)
      ((fieldsOf sep cs).map String.ofList) = String.ofList cs := by
    intro cs
    induction cs with
    | nil => rfl
    | cons c cs ih =>
      obtain ⟨piece, pieces, hpieces⟩ := List.exists_cons_of_ne_nil (fieldsOf_ne_nil sep cs)
      rw [hpieces] at ih
      rw [fieldsOf]
      split
      case isTrue hc =>
        rw [hpieces, List.map_cons, joined_cons _ (by simp), ih, hc]
        exact String.toList_inj.1 (by simp)
      case isFalse =>
        rw [hpieces]
        cases pieces with
        | nil =>
          have hcs : piece = cs := String.ofList_inj.1 ih
          rw [hcs]
          rfl
        | cons next pieces =>
          simp only [List.map_cons] at ih ⊢
          rw [joined_cons _ (List.cons_ne_nil _ _)] at ih ⊢
          refine String.toList_inj.1 ?_
          have hchars := congrArg String.toList ih
          simp only [String.toList_append, String.toList_ofList] at hchars ⊢
          rw [List.cons_append, List.cons_append, hchars]
  rw [fields, hlist, String.ofList_toList]

/-- The pieces of a text are the only texts without separators that are joined to it. -/
theorem eq_fields_iff {sep : Char} {s : String} {pieces : List String} :
    pieces = fields sep s ↔ pieces ≠ [] ∧ (∀ p ∈ pieces, sep ∉ p.toList) ∧
      joined (String.singleton sep) pieces = s := by
  constructor
  · rintro rfl
    exact ⟨fields_ne_nil sep s, fun p hp hsep => (mem_of_mem_field hp hsep).2 rfl,
      joined_fields sep s⟩
  · rintro ⟨hne, hpieces, rfl⟩
    have hsingle : ∀ p ∈ pieces, fields sep p = [p] := fun p hp => fields_of_not_mem (hpieces p hp)
    rw [fields_joined sep hne, List.flatMap_congr hsingle, List.flatMap_singleton']

theorem forall_mem_trimStartOf {cs : List Char} :
    (∀ c ∈ trimStartOf cs, isBlank c) ↔ ∀ c ∈ cs, isBlank c := by
  have hfront : ∀ c ∈ cs.takeWhile isBlank, isBlank c := fun _ => List.mem_takeWhile_imp
  have hsplit : (∀ c ∈ cs, isBlank c) ↔
      ∀ c ∈ cs.takeWhile isBlank ++ trimStartOf cs, isBlank c := by
    rw [trimStartOf, List.takeWhile_append_dropWhile]
  rw [hsplit, List.forall_mem_append]
  exact ⟨fun h => ⟨hfront, h⟩, And.right⟩

/-- Trimming leaves nothing of a text exactly when it is all blank. -/
theorem trim_eq_empty_iff {s : String} : trim s = "" ↔ ∀ c ∈ s.toList, isBlank c := by
  have hnil (cs : List Char) : trimStartOf cs = [] ↔ ∀ c ∈ cs, isBlank c :=
    List.dropWhile_eq_nil_iff
  rw [trim, ← String.toList_inj, String.toList_ofList, String.toList_empty,
    List.reverse_eq_nil_iff, hnil]
  simp only [List.mem_reverse]
  exact forall_mem_trimStartOf

/-! ### Cuts -/

theorem cut_eq_none_iff {sep : Char} {s : String} : cut sep s = none ↔ sep ∉ s.toList := by
  rw [cut, Option.map_eq_none_iff, cutOf_eq_none_iff]

/-- A cut is the one way to write a text with the separator behind a front that has none. -/
theorem cut_eq_some_iff {sep : Char} {s front rest : String} :
    cut sep s = some (front, rest) ↔
      s = front ++ String.singleton sep ++ rest ∧ sep ∉ front.toList := by
  constructor
  · intro h
    obtain ⟨⟨a, b⟩, hcut, hparts⟩ := Option.map_eq_some_iff.1 h
    obtain ⟨rfl, rfl⟩ := Prod.mk.inj hparts
    obtain ⟨hs, hfront⟩ := eq_of_cutOf hcut
    refine ⟨String.toList_inj.1 ?_, by simpa using hfront⟩
    simp [hs]
  · rintro ⟨rfl, hfront⟩
    have hlist : (front ++ String.singleton sep ++ rest).toList =
        front.toList ++ sep :: rest.toList := by simp
    rw [cut, hlist, cutOf_append _ hfront]
    simp

/-- The first copy of a mark is the one with the least in front of it. -/
theorem eq_of_cutAtOf {mark : List Char} : ∀ {cs a b : List Char}, cutAtOf mark cs = some (a, b) →
    cs = a ++ (mark ++ b) ∧ ∀ a' b', cs = a' ++ (mark ++ b') → a.length ≤ a'.length
  | [], a, b, h => by
    obtain ⟨rest, hrest, hparts⟩ := Option.map_eq_some_iff.1 h
    obtain ⟨rfl, rfl⟩ := Prod.mk.inj hparts
    exact ⟨by rw [List.nil_append, ← eq_of_afterMark hrest], fun _ _ _ => Nat.zero_le _⟩
  | c :: cs, a, b, h => by
    rw [cutAtOf] at h
    split at h
    case h_1 rest hrest =>
      obtain ⟨rfl, rfl⟩ := Prod.mk.inj (Option.some.inj h)
      exact ⟨by rw [List.nil_append, ← eq_of_afterMark hrest], fun _ _ _ => Nat.zero_le _⟩
    case h_2 hnone =>
      obtain ⟨⟨front, rest⟩, hcut, hparts⟩ := Option.map_eq_some_iff.1 h
      obtain ⟨rfl, rfl⟩ := Prod.mk.inj hparts
      obtain ⟨hcs, hleast⟩ := eq_of_cutAtOf hcut
      refine ⟨congrArg (List.cons c) hcs, fun a' b' h' => ?_⟩
      cases a' with
      | nil =>
        rw [h', List.nil_append, afterMark_append] at hnone
        cases hnone
      | cons c' a' => exact Nat.succ_le_succ (hleast a' b' (List.cons.inj h').2)

/-- A text is cut in two at the first place where a mark stands. -/
def CutAtFirst (mark s front rest : String) : Prop :=
  s = front ++ mark ++ rest ∧
    ∀ front' rest', s = front' ++ mark ++ rest' → front.length ≤ front'.length

theorem eq_append_iff {mark s front rest : String} :
    s = front ++ mark ++ rest ↔ s.toList = front.toList ++ (mark.toList ++ rest.toList) := by
  rw [← String.toList_inj, String.toList_append, String.toList_append, List.append_assoc]

theorem cutAt_eq_none_iff {mark s : String} :
    cutAt mark s = none ↔ ∀ front rest, s ≠ front ++ mark ++ rest := by
  rw [cutAt, Option.map_eq_none_iff, ← Option.not_isSome_iff_eq_none, isSome_cutAtOf]
  constructor
  · rintro h front rest hs
    exact h ⟨front.toList, rest.toList, by rw [eq_append_iff.1 hs, List.append_assoc]⟩
  · rintro h ⟨front, rest, hs⟩
    refine h (String.ofList front) (String.ofList rest) (eq_append_iff.2 ?_)
    rw [← hs, String.toList_ofList, String.toList_ofList, List.append_assoc]

theorem cutAt_eq_some_iff {mark s front rest : String} :
    cutAt mark s = some (front, rest) ↔ CutAtFirst mark s front rest := by
  have hfirst {front rest : String} (h : cutAt mark s = some (front, rest)) :
      CutAtFirst mark s front rest := by
    obtain ⟨⟨a, b⟩, hcut, hparts⟩ := Option.map_eq_some_iff.1 h
    obtain ⟨rfl, rfl⟩ := Prod.mk.inj hparts
    obtain ⟨hs, hleast⟩ := eq_of_cutAtOf hcut
    refine ⟨eq_append_iff.2 (by simpa using hs), fun front' rest' h' => ?_⟩
    rw [String.length_ofList, ← String.length_toList]
    exact hleast _ _ (eq_append_iff.1 h')
  refine ⟨hfirst, fun h => ?_⟩
  -- there is a first place, and no two places with as little in front of them
  cases hcut : cutAt mark s with
  | none => exact absurd h.1 (cutAt_eq_none_iff.1 hcut front rest)
  | some parts =>
    obtain ⟨front', rest'⟩ := parts
    obtain ⟨hs', hleast'⟩ := hfirst hcut
    have hlength : front'.toList.length = front.toList.length :=
      Nat.le_antisymm (hleast' _ _ h.1) (h.2 _ _ hs')
    obtain ⟨hfront, hbehind⟩ :=
      List.append_inj ((eq_append_iff.1 hs').symm.trans (eq_append_iff.1 h.1)) hlength
    rw [String.toList_inj.1 hfront, String.toList_inj.1 (List.append_cancel_left hbehind)]

end CloudInventory.Text
