/-!
Cutting text at separators. `fields` cuts at every separator and so has one piece more than there
are separators; `cut` and `cutLast` cut once, at the first or the last one, and `cutAt` at the
first copy of a longer mark.
-/

namespace CloudInventory.Text

/-! ### Lists of characters -/

/-- The pieces between separators; never empty. -/
def fieldsOf (sep : Char) : List Char → List (List Char)
  | [] => [[]]
  | c :: cs =>
    if c = sep then [] :: fieldsOf sep cs
    else
      match fieldsOf sep cs with
      | [] => [[c]]
      | piece :: pieces => (c :: piece) :: pieces

/-- What stands before and after the first separator. -/
def cutOf (sep : Char) : List Char → Option (List Char × List Char)
  | [] => none
  | c :: cs => if c = sep then some ([], cs) else (cutOf sep cs).map fun p => (c :: p.1, p.2)

/-- What stands before and after the last separator. -/
def cutLastOf (sep : Char) : List Char → Option (List Char × List Char)
  | [] => none
  | c :: cs =>
    match cutLastOf sep cs with
    | some p => some (c :: p.1, p.2)
    | none => if c = sep then some ([], cs) else none

/-- `text` without `mark` in front of it. -/
def afterMark : List Char → List Char → Option (List Char)
  | [], text => some text
  | _ :: _, [] => none
  | m :: ms, c :: cs => if m = c then afterMark ms cs else none

/-- What stands before and after the first copy of `mark`. -/
def cutAtOf (mark : List Char) : List Char → Option (List Char × List Char)
  | [] => (afterMark mark []).map fun rest => ([], rest)
  | c :: cs =>
    match afterMark mark (c :: cs) with
    | some rest => some ([], rest)
    | none => (cutAtOf mark cs).map fun p => (c :: p.1, p.2)

/-! ### Text -/

/-- The pieces of `s` between separators, in order. -/
def fields (sep : Char) (s : String) : List String :=
  (fieldsOf sep s.toList).map String.ofList

/-- `s` cut at its first `sep`. -/
def cut (sep : Char) (s : String) : Option (String × String) :=
  (cutOf sep s.toList).map fun p => (String.ofList p.1, String.ofList p.2)

/-- `s` cut at its last `sep`. -/
def cutLast (sep : Char) (s : String) : Option (String × String) :=
  (cutLastOf sep s.toList).map fun p => (String.ofList p.1, String.ofList p.2)

/-- `s` cut at its first copy of `mark`. -/
def cutAt (mark s : String) : Option (String × String) :=
  (cutAtOf mark.toList s.toList).map fun p => (String.ofList p.1, String.ofList p.2)

/-- The rest of `s` when it begins with `mark`. -/
def dropStart (mark s : String) : Option String :=
  (afterMark mark.toList s.toList).map String.ofList

/-- The front of `s` when it ends with `mark`. -/
def dropEnd (mark s : String) : Option String :=
  (afterMark mark.toList.reverse s.toList.reverse).map fun rest => String.ofList rest.reverse

/-- `part` occurs somewhere in `s`. -/
def occursIn (part s : String) : Bool := (cutAt part s).isSome

/-- `s` unless it is empty. -/
def nonEmpty (s : String) : Option String := if s = "" then none else some s

/-- `pieces` with `sep` between them. -/
def joined (sep : String) : List String → String
  | [] => ""
  | [piece] => piece
  | piece :: pieces => piece ++ sep ++ joined sep pieces

/-! ### Laws -/

theorem fieldsOf_ne_nil (sep : Char) (cs : List Char) : fieldsOf sep cs ≠ [] := by
  cases cs with
  | nil => simp [fieldsOf]
  | cons c cs =>
    simp only [fieldsOf]
    split
    · simp
    · split <;> simp

/-- A cut loses nothing but the separator. -/
theorem eq_of_cutOf {sep : Char} : ∀ {cs a b : List Char},
    cutOf sep cs = some (a, b) → cs = a ++ sep :: b ∧ sep ∉ a
  | [], _, _, h => by simp [cutOf] at h
  | c :: cs, a, b, h => by
    by_cases hc : c = sep
    · simp [cutOf, hc] at h
      obtain ⟨rfl, rfl⟩ := h
      simp [hc]
    · simp only [cutOf, hc, if_false, Option.map_eq_some_iff] at h
      obtain ⟨⟨a', b'⟩, hp, he⟩ := h
      cases he
      obtain ⟨h1, h2⟩ := eq_of_cutOf hp
      exact ⟨by simp [h1], by simp [h2, Ne.symm hc]⟩

/-- A text is cut at its first separator. -/
theorem cutOf_append {sep : Char} : ∀ {a : List Char} (b : List Char), sep ∉ a →
    cutOf sep (a ++ sep :: b) = some (a, b)
  | [], b, _ => by simp [cutOf]
  | c :: a, b, h => by
    obtain ⟨hc, ha⟩ : ¬ sep = c ∧ sep ∉ a := not_or.1 fun hor => h (List.mem_cons.2 hor)
    rw [List.cons_append, cutOf, if_neg (Ne.symm hc), cutOf_append b ha, Option.map_some]

/-- There is no cut exactly when there is no separator. -/
theorem cutOf_eq_none_iff {sep : Char} {cs : List Char} : cutOf sep cs = none ↔ sep ∉ cs := by
  induction cs with
  | nil => simp [cutOf]
  | cons c cs ih =>
    by_cases hc : c = sep
    · simp [cutOf, hc]
    · simp [cutOf, hc, ih, Ne.symm hc]

theorem cutLastOf_eq_none_iff {sep : Char} : ∀ {cs : List Char},
    cutLastOf sep cs = none ↔ sep ∉ cs
  | [] => by simp [cutLastOf]
  | c :: cs => by
    have ih : cutLastOf sep cs = none ↔ sep ∉ cs := cutLastOf_eq_none_iff
    rw [cutLastOf]
    split
    case h_1 p hp =>
      have hmem : sep ∈ cs := Decidable.not_not.1 fun hnot => by
        rw [ih.2 hnot] at hp
        cases hp
      simp [hmem]
    case h_2 hnone =>
      by_cases hc : c = sep
      · simp [hc]
      · simp [hc, ih.1 hnone, Ne.symm hc]

/-- A cut at the last separator loses nothing but that. -/
theorem eq_of_cutLastOf {sep : Char} : ∀ {cs a b : List Char},
    cutLastOf sep cs = some (a, b) → cs = a ++ sep :: b ∧ sep ∉ b
  | [], _, _, h => by simp [cutLastOf] at h
  | c :: cs, a, b, h => by
    rw [cutLastOf] at h
    split at h
    case h_1 p hp =>
      obtain ⟨rfl, rfl⟩ := Prod.mk.inj (Option.some.inj h)
      obtain ⟨hcs, hb⟩ := eq_of_cutLastOf hp
      exact ⟨by rw [List.cons_append, ← hcs], hb⟩
    case h_2 hnone =>
      split at h
      case isFalse => cases h
      case isTrue hc =>
        obtain ⟨rfl, rfl⟩ := Prod.mk.inj (Option.some.inj h)
        exact ⟨by rw [hc, List.nil_append], cutLastOf_eq_none_iff.1 hnone⟩

theorem afterMark_append : ∀ mark cs : List Char, afterMark mark (mark ++ cs) = some cs
  | [], _ => rfl
  | m :: mark, cs => by rw [List.cons_append, afterMark, if_pos rfl, afterMark_append mark cs]

theorem eq_of_afterMark : ∀ {mark cs rest : List Char},
    afterMark mark cs = some rest → cs = mark ++ rest
  | [], _, _, h => Option.some.inj h
  | m :: mark, [], _, h => by cases h
  | m :: mark, c :: cs, rest, h => by
    rw [afterMark] at h
    split at h
    case isTrue hc => rw [eq_of_afterMark h, hc, List.cons_append]
    case isFalse => cases h

/-- A mark is found exactly when it stands somewhere. -/
theorem isSome_cutAtOf {mark : List Char} : ∀ {cs : List Char},
    (cutAtOf mark cs).isSome ↔ mark <:+: cs
  | [] => by
    rw [cutAtOf, Option.isSome_map]
    cases mark with
    | nil => simp [afterMark]
    | cons m mark => simp [afterMark]
  | c :: cs => by
    rw [cutAtOf, List.infix_cons_iff]
    split
    case h_1 rest hrest =>
      exact iff_of_true rfl (.inl ⟨rest, (eq_of_afterMark hrest).symm⟩)
    case h_2 hnone =>
      rw [Option.isSome_map, isSome_cutAtOf]
      refine (or_iff_right ?_).symm
      rintro ⟨rest, hrest⟩
      rw [← hrest, afterMark_append] at hnone
      cases hnone

theorem occursIn_iff {part s : String} : occursIn part s ↔ part.toList <:+: s.toList := by
  rw [occursIn, cutAt, Option.isSome_map, isSome_cutAtOf]

theorem dropStart_append (mark s : String) : dropStart mark (mark ++ s) = some s := by
  rw [dropStart, String.toList_append, afterMark_append, Option.map_some, String.ofList_toList]

theorem dropEnd_append (s mark : String) : dropEnd mark (s ++ mark) = some s := by
  rw [dropEnd, String.toList_append, List.reverse_append, afterMark_append, Option.map_some,
    List.reverse_reverse, String.ofList_toList]

theorem nonEmpty_eq_some_iff {s t : String} : nonEmpty s = some t ↔ s = t ∧ t ≠ "" := by
  unfold nonEmpty
  split
  case isTrue hs => exact iff_of_false (fun h => nomatch h) fun h => h.2 (h.1 ▸ hs)
  case isFalse hs =>
    rw [Option.some.injEq]
    exact ⟨fun h => ⟨h, h ▸ hs⟩, And.left⟩

theorem bind_nonEmpty_eq_some_iff {s : Option String} {t : String} :
    s.bind nonEmpty = some t ↔ s = some t ∧ t ≠ "" := by
  rw [Option.bind_eq_some_iff]
  constructor
  · rintro ⟨u, rfl, hu⟩
    obtain ⟨rfl, hne⟩ := nonEmpty_eq_some_iff.1 hu
    exact ⟨rfl, hne⟩
  · rintro ⟨rfl, hne⟩
    exact ⟨t, rfl, nonEmpty_eq_some_iff.2 ⟨rfl, hne⟩⟩

theorem eq_of_bind_nonEmpty {s : Option String} {t : String} (h : s.bind nonEmpty = some t) :
    s = some t :=
  (bind_nonEmpty_eq_some_iff.1 h).1

theorem ne_empty_of_bind_nonEmpty {s : Option String} {t : String}
    (h : s.bind nonEmpty = some t) : t ≠ "" :=
  (bind_nonEmpty_eq_some_iff.1 h).2

end CloudInventory.Text
