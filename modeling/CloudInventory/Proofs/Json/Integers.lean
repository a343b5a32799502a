import CloudInventory.Json.NumberText
import CloudInventory.Proofs.Json.Nesting
import CloudInventory.Proofs.Text.Digits

/-!
Integers in JSON texts. An integer of 64 bits is read back from its text, and no other integer is
read from any text: what is larger becomes a number with a point.
-/

namespace CloudInventory

namespace Number

/-- Digits are all taken in as long as their value fits. -/
theorem collect_eq (start : Nat) : ∀ {digits : List Char},
    Nat.ofDigitChars 10 digits start < Nat.pow 2 64 →
    collect start digits = ⟨Nat.ofDigitChars 10 digits start, 0, digits.length⟩
  | [], _ => rfl
  | c :: cs, h => by
    rw [Nat.ofDigitChars_cons] at h ⊢
    have hnext : start * 10 + digitValue c = 10 * start + (c.toNat - '0'.toNat) := by
      rw [digitValue, Nat.mul_comm]
    have hle : 10 * start + (c.toNat - '0'.toNat) ≤
        Nat.ofDigitChars 10 cs (10 * start + (c.toNat - '0'.toNat)) := by
      rw [Nat.ofDigitChars_eq_ofDigitChars_zero]
      exact Nat.le_add_right_of_le (Nat.le_mul_of_pos_left _ (Nat.pow_pos (by decide)))
    have hfits : start * 10 + digitValue c < Nat.pow 2 64 := hnext ▸ Nat.lt_of_le_of_lt hle h
    rw [collect]
    simp only [if_pos hfits]
    rw [hnext, collect_eq _ h]
    rfl

/-- The parts of a text that is nothing but digits behind its sign. -/
theorem parts?_toDigits (n : Nat) :
    parts? (Nat.toDigits 10 n) = some ⟨false, Nat.toDigits 10 n, none, none⟩ ∧
      parts? ('-' :: Nat.toDigits 10 n) = some ⟨true, Nat.toDigits 10 n, none, none⟩ := by
  have hdigits := Text.all_isDigit_toDigits n
  have hwhole : (Nat.toDigits 10 n ++ []).takeWhile Char.isDigit = Nat.toDigits 10 n :=
    Text.takeWhile_isDigit hdigits nofun
  have hrest : (Nat.toDigits 10 n ++ []).dropWhile Char.isDigit = [] :=
    Text.dropWhile_isDigit hdigits nofun
  rw [List.append_nil] at hwhole hrest
  have hwell : ¬ (Nat.toDigits 10 n = [] ∨
      (Nat.toDigits 10 n).head? = some '0' ∧ (Nat.toDigits 10 n).length ≠ 1) := by
    rintro (h | ⟨h0, h1⟩)
    · exact Nat.toDigits_ne_nil h
    · cases n with
      | zero => exact h1 rfl
      | succ n => exact Text.head?_toDigits (Nat.succ_pos n) h0
  constructor
  · obtain ⟨d, ds, hds⟩ := List.exists_cons_of_ne_nil (Nat.toDigits_ne_nil (n := n) (b := 10))
    have hd : d ≠ '-' := by
      rintro rfl
      exact absurd (hdigits '-' (hds ▸ List.mem_cons_self)) (by decide)
    rw [hds] at hwhole hrest hwell ⊢
    simp only [parts?, List.cons.injEq, hd, false_and, imp_self, implies_true, hwhole, hrest,
      if_neg hwell, exponentOf?, Option.map_some]
  · simp only [parts?, hwhole, hrest, if_neg hwell, exponentOf?, Option.map_some]

/-- An integer of 64 bits is read back from its text. -/
theorem read?_render {n : Int} (h : (int n).Small) :
    read? (render (int n)).toList = some (some (int n)) := by
  have hcollect {m : Nat} (hm : m < Nat.pow 2 64) : collect 0 (Nat.toDigits 10 m) =
      ⟨m, 0, (Nat.toDigits 10 m).length⟩ := by
    rw [collect_eq 0 (by rwa [Nat.ofDigitChars_ten_toDigits]), Nat.ofDigitChars_ten_toDigits]
  cases n with
  | ofNat m =>
    have hm : m < Nat.pow 2 64 := Int.ofNat_lt.1 h.2
    have htext : (render (int (Int.ofNat m))).toList = Nat.toDigits 10 m := Nat.toList_repr
    rw [htext, read?, (parts?_toDigits m).1, Option.map_some, ofNumberParts]
    simp [hcollect hm, ofInteger]
  | negSucc m =>
    have hm : m + 1 ≤ Nat.pow 2 63 := by have := h.1; omega
    have htext : (render (int (Int.negSucc m))).toList = '-' :: Nat.toDigits 10 (m + 1) := by
      show ("-" ++ Nat.repr (m + 1)).toList = _
      simp
    rw [htext, read?, (parts?_toDigits (m + 1)).2, Option.map_some, ofNumberParts]
    simp only [hcollect (Nat.lt_of_le_of_lt hm (by decide)), if_true]
    rw [ofInteger, if_neg (by decide), if_pos ⟨Nat.succ_pos m, hm⟩]
    rfl

theorem collect_lt {start : Nat} (h : start < Nat.pow 2 64) :
    ∀ digits : List Char, (collect start digits).value < Nat.pow 2 64
  | [] => h
  | c :: cs => by
    simp only [collect]
    split
    case isTrue hnext => exact collect_lt hnext cs
    case isFalse => exact h

theorem small_of_ofParts {negative : Bool} {significand : Nat} {e : Int} {n : Number}
    (h : ofParts negative significand e = some n) : n.Small := by
  obtain ⟨x, -, h⟩ := Option.bind_eq_some_iff.1 h
  obtain ⟨y, -, rfl⟩ := Option.map_eq_some_iff.1 h
  trivial

theorem small_of_ofInteger {negative : Bool} {k : Nat} {n : Number} (hk : k < Nat.pow 2 64)
    (h : ofInteger negative k = some n) : n.Small := by
  rw [ofInteger] at h
  split at h
  · cases h
    exact ⟨by omega, by omega⟩
  · split at h
    case isTrue hle =>
      cases h
      have : k ≤ Nat.pow 2 63 := hle.2
      exact ⟨by omega, by omega⟩
    case isFalse => exact small_of_ofParts h

/-- An integer that is read has 64 bits. -/
theorem small_of_read? {text : List Char} {n : Number} (h : read? text = some (some n)) :
    n.Small := by
  obtain ⟨p, -, h⟩ := Option.map_eq_some_iff.1 h
  simp only [ofNumberParts] at h
  split at h
  · split at h
    · exact small_of_ofInteger (collect_lt (by decide) p.whole) h
    · exact small_of_ofParts h
  · split at h
    · exact small_of_ofParts h
    · split at h
      · exact small_of_ofParts h
      · split at h
        · cases h
        · cases h
          trivial

end Number

end CloudInventory
