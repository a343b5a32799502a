import CloudInventory.Proofs.Instant.Calendar
import CloudInventory.Proofs.Text.Digits

/-!
Instants are read back from the texts that are written for them. An instant that has been read is
on the calendar, and the text of one on the calendar has each of its parts in the width in which
it is read.
-/

namespace CloudInventory.Instant

/-- The calendar has the instant. -/
def OnCalendar (t : Instant) : Prop := ofUnix? t.seconds t.nanos = some t

theorem onCalendar_of_ofUnix? {seconds : Int} {nanos : Nat} {t : Instant}
    (h : ofUnix? seconds nanos = some t) : t.OnCalendar := by
  have ht : t = ⟨seconds, nanos⟩ := by
    rw [ofUnix?] at h
    split at h <;> cases h
    rfl
  rw [ht] at h ⊢
  exact h

/-- What is read is on the calendar. -/
theorem onCalendar_of_read? {text : String} {t : Instant} (h : read? text = some t) :
    t.OnCalendar := by
  rw [read?] at h
  -- six numbers with five marks between them, the fraction and the zone
  iterate 13 obtain ⟨_, -, h⟩ := Option.bind_eq_some_iff.1 h
  dsimp only at h
  split at h
  · cases h
  · split at h
    · cases h
    · split at h <;> exact onCalendar_of_ofUnix? h

/-! ### Parts of the text -/

theorem toList_padded (width n : Nat) : (padded width n).toList =
    List.replicate (width - (Nat.toDigits 10 n).length) '0' ++ Nat.toDigits 10 n := by
  simp [padded, Nat.repr_eq_ofList_toDigits]

theorem isDigit_of_mem_padded {width n : Nat} {c : Char} (h : c ∈ (padded width n).toList) :
    c.isDigit = true := by
  rw [toList_padded, List.mem_append, List.mem_replicate] at h
  rcases h with ⟨-, rfl⟩ | h
  · rfl
  · exact Text.all_isDigit_toDigits n c h

theorem ofDigitChars_padded (width n : Nat) :
    Nat.ofDigitChars 10 (padded width n).toList 0 = n := by
  rw [toList_padded, Nat.ofDigitChars_append, Nat.ofDigitChars_replicate_zero, Nat.mul_zero,
    Nat.ofDigitChars_ten_toDigits]

/-- A number below a power of ten has as many digits as the power has zeros. -/
theorem length_padded {width n : Nat} (hwidth : 0 < width) (h : n < Nat.pow 10 width) :
    (padded width n).toList.length = width := by
  have := (Nat.length_toDigits_le_iff (b := 10) (by decide) hwidth).2 h
  rw [toList_padded, List.length_append, List.length_replicate]
  omega

theorem padded_ne_nil (width n : Nat) : (padded width n).toList ≠ [] := by
  simp [toList_padded, Nat.toDigits_ne_nil]

theorem isBlank_of_isDigit {c : Char} (h : c.isDigit = true) : Text.isBlank c = false := by
  rw [Char.isDigit, Bool.and_eq_true, decide_eq_true_eq, decide_eq_true_eq] at h
  have h1 : 48 ≤ c.toNat := h.1
  have h2 : c.toNat ≤ 57 := h.2
  simp [Text.isBlank, Text.blankRanges]
  omega

/-- Digits up to the width are read as their value. -/
theorem number?_digits {width : Nat} {digits rest : List Char} (hne : digits ≠ [])
    (hdigits : ∀ c ∈ digits, c.isDigit = true) (hwidth : digits.length ≤ width)
    (hrest : ∀ c ∈ rest.head?, c.isDigit = false) :
    number? width (digits ++ rest) = some (Nat.ofDigitChars 10 digits 0, rest) := by
  have htrim : Text.trimStartOf (digits ++ rest) = digits ++ rest := by
    obtain ⟨c, cs, rfl⟩ := List.exists_cons_of_ne_nil hne
    simp [Text.trimStartOf, isBlank_of_isDigit (hdigits c List.mem_cons_self)]
  simp only [number?, htrim, Text.takeWhile_isDigit hdigits hrest, List.take_of_length_le hwidth]
  rw [if_neg hne, Text.foldl_digits, List.drop_left]

theorem part?_padded {low high n : Nat} {rest : List Char} (hlow : low ≤ n) (hhigh : n ≤ high)
    (hn : n < 100) (hrest : ∀ c ∈ rest.head?, c.isDigit = false) :
    part? low high ((padded 2 n).toList ++ rest) = some (n, rest) := by
  rw [part?, number?_digits (padded_ne_nil 2 n) (fun _ => isDigit_of_mem_padded)
    (Nat.le_of_eq (length_padded (by decide) hn)) hrest, ofDigitChars_padded, Option.bind_some,
    if_pos ⟨hlow, hhigh⟩]

theorem mark?_cons {mark : Char} (cs : List Char) (h : Text.isBlank mark = false) :
    mark? mark (mark :: cs) = some cs := by
  simp [mark?, after?, Text.trimStartOf, h]

theorem trimStartOf_cons {c : Char} (cs : List Char) (h : Text.isBlank c = false) :
    Text.trimStartOf (c :: cs) = c :: cs := by
  simp [Text.trimStartOf, h]

theorem year?_digit {c : Char} {cs : List Char} (h : c.isDigit = true) :
    year? (c :: cs) = (number? 4 (c :: cs)).map fun p => ((p.1 : Int), p.2) := by
  rw [year?, trimStartOf_cons cs (isBlank_of_isDigit h)]
  split
  case h_1 he => rw [(List.cons.inj he).1] at h; cases h
  case h_2 he => rw [(List.cons.inj he).1] at h; cases h
  case h_3 => rfl

theorem year?_minus {c : Char} {cs : List Char} (h : c.isDigit = true) :
    year? ('-' :: c :: cs) =
      (number? cs.length.succ (c :: cs)).map fun p => (-(p.1 : Int), p.2) := by
  rw [year?, trimStartOf_cons _ (by decide)]
  exact if_pos h

theorem year?_plus {c : Char} {cs : List Char} (h : c.isDigit = true) :
    year? ('+' :: c :: cs) =
      (number? cs.length.succ (c :: cs)).map fun p => ((p.1 : Int), p.2) := by
  rw [year?, trimStartOf_cons _ (by decide)]
  exact if_pos h

/-- Years of four digits stand alone, all others behind a sign. -/
theorem year?_yearText (year : Int) {rest : List Char}
    (hrest : ∀ c ∈ rest.head?, c.isDigit = false) :
    year? ((yearText year).toList ++ rest) = some (year, rest) := by
  obtain ⟨d, ds, hds⟩ := List.exists_cons_of_ne_nil (padded_ne_nil 4 year.natAbs)
  have hdigits : ∀ c ∈ d :: ds, c.isDigit = true := by
    rw [← hds]
    exact fun _ => isDigit_of_mem_padded
  have hd : d.isDigit = true := hdigits d List.mem_cons_self
  have hread (width : Nat) (hwidth : (d :: ds).length ≤ width) :
      number? width (d :: (ds ++ rest)) = some (year.natAbs, rest) := by
    rw [← ofDigitChars_padded 4 year.natAbs, hds, ← List.cons_append]
    exact number?_digits (List.cons_ne_nil d ds) hdigits hwidth hrest
  have hlong : (d :: ds).length ≤ (ds ++ rest).length.succ := by simp
  rw [yearText]
  split
  case isTrue hfour =>
    have hlength : (d :: ds).length = 4 := by
      rw [← hds]
      exact length_padded (by decide) (show year.natAbs < 10000 by omega)
    have hyear : (year.natAbs : Int) = year := by omega
    rw [hds, List.cons_append, year?_digit hd, hread 4 (Nat.le_of_eq hlength), Option.map_some,
      hyear]
  case isFalse =>
    rw [String.toList_append, hds]
    split
    case isTrue hneg =>
      have hyear : -(year.natAbs : Int) = year := by omega
      show year? ('-' :: d :: (ds ++ rest)) = _
      rw [year?_minus hd, hread _ hlong, Option.map_some, hyear]
    case isFalse hpos =>
      have hyear : (year.natAbs : Int) = year := by omega
      show year? ('+' :: d :: (ds ++ rest)) = _
      rw [year?_plus hd, hread _ hlong, Option.map_some, hyear]

/-- The digits of a fraction, followed by zeros, are its nanoseconds. -/
theorem fraction?_padded {width n : Nat} {rest : List Char} (hwidth : 0 < width) (hnine : width ≤ 9)
    (hn : n < Nat.pow 10 width) (hrest : ∀ c ∈ rest.head?, c.isDigit = false) :
    fraction? ('.' :: ((padded width n).toList ++ rest)) =
      some (n * Nat.pow 10 (9 - width), rest) := by
  have hdigits : ∀ c ∈ (padded width n).toList, c.isDigit = true := fun _ => isDigit_of_mem_padded
  have hlength := length_padded hwidth hn
  have hzeros : ((padded width n).toList ++ List.replicate 9 '0').take 9 =
      (padded width n).toList ++ List.replicate (9 - width) '0' := by
    rw [List.take_append, List.take_of_length_le (by omega), hlength, List.take_replicate,
      Nat.min_eq_left (Nat.sub_le 9 width)]
  simp only [fraction?, Text.takeWhile_isDigit hdigits hrest, Text.dropWhile_isDigit hdigits hrest,
    hzeros]
  rw [if_neg (padded_ne_nil width n), Text.foldl_digits, Nat.ofDigitChars_append,
    ofDigitChars_padded, Nat.ofDigitChars_replicate_zero, Nat.mul_comm, Nat.pow_eq]

/-- A fraction is written in the least of the widths 0, 3, 6 and 9 that holds it. -/
theorem fraction?_fractionText {nanos : Nat} (h : nanos < Nat.pow 10 9) {c : Char}
    {rest : List Char} (hdot : c ≠ '.') (hc : c.isDigit = false) :
    fraction? ((fractionText nanos).toList ++ c :: rest) = some (nanos, c :: rest) := by
  have hread {width n : Nat} (hwidth : 0 < width) (hnine : width ≤ 9) (hn : n < Nat.pow 10 width)
      (hnanos : n * Nat.pow 10 (9 - width) = nanos) :
      fraction? (("." ++ padded width n).toList ++ c :: rest) = some (nanos, c :: rest) := by
    rw [← hnanos, String.toList_append]
    exact fraction?_padded hwidth hnine hn (by simpa using hc)
  have hlt : nanos < 1000000000 := h
  rw [fractionText]
  split
  case isTrue hzero =>
    rw [hzero]
    show fraction? (c :: rest) = _
    rw [fraction?]
    rintro cs ⟨⟩
    exact hdot rfl
  case isFalse =>
    split
    case isTrue =>
      exact hread (by decide) (by decide) (show nanos / 1000000 < 1000 by omega)
        (show nanos / 1000000 * 1000000 = nanos by omega)
    case isFalse =>
      split
      case isTrue =>
        exact hread (by decide) (by decide) (show nanos / 1000 < 1000000 by omega)
          (show nanos / 1000 * 1000 = nanos by omega)
      case isFalse => exact hread (by decide) (by decide) h (Nat.mul_one nanos)

theorem head?_fractionText (nanos : Nat) {rest : List Char}
    (hrest : ∀ c ∈ rest.head?, c.isDigit = false) :
    ∀ c ∈ ((fractionText nanos).toList ++ rest).head?, c.isDigit = false := by
  rw [fractionText]
  split
  case isTrue => exact hrest
  case isFalse =>
    have hdot (text : String) : ∀ c ∈ (("." ++ text).toList ++ rest).head?, c.isDigit = false := by
      simp
    split
    case isTrue => exact hdot _
    case isFalse => split <;> exact hdot _

/-! ### The whole text -/

theorem daysIn_le (year : Int) (month : Nat) : daysIn year month ≤ 31 := by
  rw [daysIn]
  split <;> split <;> decide

theorem bind_of_eq_some {α β : Type} {o : Option α} {a : α} {f : α → Option β} (h : o = some a) :
    (o >>= f) = f a := by
  rw [h]
  rfl

theorem onCalendar_iff {t : Instant} : t.OnCalendar ↔
    firstSecond ≤ t.seconds ∧ t.seconds < endSecond ∧
      (t.nanos < Nat.pow 10 9 ∨ (t.seconds % 60 = 59 ∧ t.nanos < 2 * Nat.pow 10 9)) := by
  rw [OnCalendar, ofUnix?]
  split
  case isTrue h => exact iff_of_true rfl h
  case isFalse h => exact iff_of_false nofun h

/-- The text of an instant, part by part. -/
theorem toList_zulu (t : Instant) : t.zulu.toList =
    (yearText (dateOf (t.seconds / 86400)).year).toList ++
      '-' :: ((padded 2 (dateOf (t.seconds / 86400)).month).toList ++
      '-' :: ((padded 2 (dateOf (t.seconds / 86400)).day).toList ++
      'T' :: ((padded 2 ((t.seconds % 86400).toNat / 3600)).toList ++
      ':' :: ((padded 2 ((t.seconds % 86400).toNat / 60 % 60)).toList ++
      ':' :: ((padded 2 ((t.seconds % 86400).toNat % 60 + t.nanos / Nat.pow 10 9)).toList ++
      ((fractionText (t.nanos % Nat.pow 10 9)).toList ++ ['Z'])))))) := by
  simp [zulu, render]

/-- A text of all the parts is read part by part. -/
theorem read?_of_toList {text : String} {date : Date} {hour minute second nanos : Nat}
    (htext : text.toList = (yearText date.year).toList ++
      '-' :: ((padded 2 date.month).toList ++
      '-' :: ((padded 2 date.day).toList ++
      'T' :: ((padded 2 hour).toList ++
      ':' :: ((padded 2 minute).toList ++
      ':' :: ((padded 2 second).toList ++ ((fractionText nanos).toList ++ ['Z'])))))))
    (hmonth : 1 ≤ date.month ∧ date.month ≤ 12)
    (hday : 1 ≤ date.day ∧ date.day ≤ daysIn date.year date.month) (hhour : hour ≤ 23)
    (hminute : minute ≤ 59) (hsecond : second ≤ 60) (hnanos : nanos < Nat.pow 10 9) :
    read? text =
      let start := daysOf date.year date.month date.day * 86400 + hour * 3600 + minute * 60
      if start < firstSecond ∨ endSecond ≤ start then none
      else if second = 60 then ofUnix? (start + 59) (nanos + Nat.pow 10 9)
      else ofUnix? (start + second) nanos := by
  have hdays := daysIn_le date.year date.month
  have hmark {c : Char} (cs : List Char) (hc : c.isDigit = false) :
      ∀ d ∈ (c :: cs).head?, d.isDigit = false := by simpa using hc
  have hdash (cs : List Char) : mark? '-' ('-' :: cs) = some cs := mark?_cons cs rfl
  have hcolon (cs : List Char) : mark? ':' (':' :: cs) = some cs := mark?_cons cs rfl
  have hzone : offset? (Text.trimStartOf ['Z']) = some (0, []) := rfl
  rw [read?, htext]
  refine (bind_of_eq_some (year?_yearText date.year (hmark _ rfl))).trans ?_
  refine (bind_of_eq_some (hdash _)).trans ?_
  refine (bind_of_eq_some (part?_padded hmonth.1 hmonth.2 (by omega) (hmark _ rfl))).trans ?_
  refine (bind_of_eq_some (hdash _)).trans ?_
  refine (bind_of_eq_some (part?_padded hday.1 (by omega) (by omega) (hmark _ rfl))).trans ?_
  refine (bind_of_eq_some rfl).trans ?_
  refine (bind_of_eq_some (part?_padded hour.zero_le hhour (by omega) (hmark _ rfl))).trans ?_
  refine (bind_of_eq_some (hcolon _)).trans ?_
  refine (bind_of_eq_some (part?_padded minute.zero_le hminute (by omega) (hmark _ rfl))).trans ?_
  refine (bind_of_eq_some (hcolon _)).trans ?_
  refine (bind_of_eq_some (part?_padded second.zero_le hsecond (by omega)
    (head?_fractionText nanos (hmark [] rfl)))).trans ?_
  refine (bind_of_eq_some (fraction?_fractionText hnanos (by decide) rfl)).trans ?_
  refine (bind_of_eq_some hzone).trans ?_
  dsimp only
  rw [if_neg (not_or.2 ⟨fun hne => hne rfl, Nat.not_lt.2 hday.2⟩), Int.sub_zero, Int.sub_zero]

/-- An instant on the calendar is read back from its text. -/
theorem read?_zulu {t : Instant} (h : t.OnCalendar) : read? t.zulu = some t := by
  obtain ⟨hfirst, hend, hnanos⟩ := onCalendar_iff.1 h
  obtain ⟨hmonth, hmonth', hday, hday'⟩ := dateOf_bounds (t.seconds / 86400)
  have hdays := daysOf_dateOf (t.seconds / 86400)
  have hpow : Nat.pow 10 9 = 1000000000 := rfl
  rw [hpow] at hnanos
  rw [read?_of_toList (toList_zulu t) ⟨hmonth, hmonth'⟩ ⟨hday, hday'⟩ (by omega) (by omega)
    (by rw [hpow]; omega) (Nat.mod_lt _ (Nat.pow_pos (by decide))), hdays, hpow]
  obtain ⟨ofDay, hofDay⟩ : ∃ n : Nat, t.seconds % 86400 = n :=
    ⟨(t.seconds % 86400).toNat, by omega⟩
  have hstart : t.seconds / 86400 * 86400 + (ofDay / 3600 : Nat) * 3600 +
      (ofDay / 60 % 60 : Nat) * 60 = t.seconds - (ofDay % 60 : Nat) := by omega
  -- the calendar begins and ends with whole minutes
  have hbounds : ¬ (t.seconds - (ofDay % 60 : Nat) < firstSecond ∨
      endSecond ≤ t.seconds - (ofDay % 60 : Nat)) := by
    simp only [firstSecond, endSecond] at hfirst hend ⊢
    omega
  dsimp only
  rw [hofDay, Int.toNat_natCast, hstart, if_neg hbounds]
  split
  case isTrue h60 =>
    -- a second of nanoseconds beyond the first one makes the sixtieth second of a minute
    have hseconds : t.seconds - (ofDay % 60 : Nat) + 59 = t.seconds := by omega
    have hleap : t.nanos % 1000000000 + 1000000000 = t.nanos := by omega
    rw [hseconds, hleap]
    exact h
  case isFalse h60 =>
    have hseconds : t.seconds - (ofDay % 60 : Nat) + (ofDay % 60 + t.nanos / 1000000000 : Nat) =
        t.seconds := by omega
    have hwhole : t.nanos % 1000000000 = t.nanos := by omega
    rw [hseconds, hwhole]
    exact h

end CloudInventory.Instant
