import Mathlib.Data.List.Lex
import Mathlib.Tactic.SplitIfs

/-!
The order of texts is the order of their bytes. A character is written as one to four bytes: a
first byte, whose mark tells how many follow, and six bits in each of those. Of two characters with
equally many bytes the later one has the later bytes, and with more bytes the first one is greater.
-/

namespace CloudInventory.Text

/-- The bytes of a text. -/
def bytes (s : String) : List UInt8 := s.toUTF8.data.toList

/-! ### Characters -/

/-- How many bytes follow the first one. -/
def following (m : Nat) : Nat :=
  if m < 0x80 then 0 else if m < 0x800 then 1 else if m < 0x10000 then 2 else 3

/-- The mark of a first byte that `k` bytes follow. -/
def mark : Nat → Nat
  | 0 => 0
  | 1 => 0xc0
  | 2 => 0xe0
  | _ => 0xf0

/-- What is left of a number when six bits are cut off `k` times. -/
def high : Nat → Nat → Nat
  | 0, m => m
  | k + 1, m => high k (m / 64)

/-- A number as a first byte with a mark and `k` bytes of six bits. -/
def spread (mark : Nat) : Nat → Nat → List UInt8
  | 0, m => [UInt8.ofNat (m + mark)]
  | k + 1, m => spread mark k (m / 64) ++ [UInt8.ofNat (m % 64 + 0x80)]

theorem length_spread (mark : Nat) : ∀ k m, (spread mark k m).length = k + 1
  | 0, _ => rfl
  | k + 1, m => by
    rw [spread, List.length_append, length_spread mark k]
    rfl

theorem spread_eq_cons (mark : Nat) : ∀ k m, ∃ rest,
    spread mark k m = UInt8.ofNat (high k m + mark) :: rest
  | 0, _ => ⟨[], rfl⟩
  | k + 1, m => by
    obtain ⟨rest, hrest⟩ := spread_eq_cons mark k (m / 64)
    refine ⟨rest ++ [UInt8.ofNat (m % 64 + 0x80)], ?_⟩
    rw [spread, hrest]
    rfl

theorem toNat_lt (c : Char) : c.toNat < 0x110000 := by
  have hvalid : c.toNat.isValidChar := c.valid
  unfold Nat.isValidChar at hvalid
  omega

theorem utf8EncodeChar_eq_spread (c : Char) :
    String.utf8EncodeChar c = spread (mark (following c.toNat)) (following c.toNat) c.toNat := by
  have hlast := toNat_lt c
  have hval : c.val.toNat = c.toNat := rfl
  unfold String.utf8EncodeChar following
  rw [hval]
  generalize c.toNat = m at hlast ⊢
  by_cases h₁ : m < 0x80
  · rw [if_pos (Nat.le_of_lt_succ h₁), if_pos h₁]
    rfl
  by_cases h₂ : m < 0x800
  · rw [if_neg (by omega), if_pos (Nat.le_of_lt_succ h₂), if_neg h₁, if_pos h₂,
      Nat.mod_eq_of_lt (by omega : m / 64 < 0x20)]
    rfl
  by_cases h₃ : m < 0x10000
  · rw [if_neg (by omega), if_neg (by omega), if_pos (Nat.le_of_lt_succ h₃), if_neg h₁, if_neg h₂,
      if_pos h₃, Nat.mod_eq_of_lt (by omega : m / 4096 < 0x10)]
    simp [spread, mark, Nat.div_div_eq_div_mul]
  · rw [if_neg (by omega), if_neg (by omega), if_neg (by omega), if_neg h₁, if_neg h₂, if_neg h₃,
      Nat.mod_eq_of_lt (by omega : m / 262144 < 0x08)]
    simp [spread, mark, Nat.div_div_eq_div_mul]

/-! ### Order -/

theorem append_lt_append : ∀ {xs ys : List UInt8}, xs.length = ys.length → xs < ys →
    ∀ us vs, xs ++ us < ys ++ vs
  | [], [], _, h, _, _ => absurd h (List.not_lt_nil [])
  | x :: xs, y :: ys, hlen, h, us, vs => by
    rw [List.cons_append, List.cons_append, List.cons_lt_cons_iff]
    refine (List.cons_lt_cons_iff.1 h).imp_right fun ⟨hxy, hlt⟩ => ⟨hxy, ?_⟩
    exact append_lt_append (Nat.succ.inj hlen) hlt us vs

theorem ofNat_lt {a b : Nat} (h : a < b) (hb : b < 256) : UInt8.ofNat a < UInt8.ofNat b := by
  rw [UInt8.lt_iff_toNat_lt, UInt8.toNat_ofNat', UInt8.toNat_ofNat']
  omega

theorem spread_lt {mark : Nat} : ∀ {k m n : Nat}, m < n → high k n + mark < 256 →
    spread mark k m < spread mark k n
  | 0, _, _, h, hfits =>
    List.cons_lt_cons_iff.2 (.inl (ofNat_lt (Nat.add_lt_add_right h _) hfits))
  | k + 1, m, n, h, hfits => by
    rw [spread, spread]
    rcases Nat.lt_or_eq_of_le (Nat.div_le_div_right (Nat.le_of_lt h)) with hlt | heq
    · have hlen : (spread mark k (m / 64)).length = (spread mark k (n / 64)).length := by
        rw [length_spread, length_spread]
      exact append_lt_append hlen (spread_lt hlt hfits) _ _
    · have hlow : m % 64 + 0x80 < n % 64 + 0x80 := by omega
      have hbyte : n % 64 + 0x80 < 256 := by omega
      rw [heq]
      exact List.append_left_lt (List.cons_lt_cons_iff.2 (.inl (ofNat_lt hlow hbyte)))

/-- The first bytes decide unless equally many follow them. -/
theorem spread_following_lt {m n : Nat} (h : m < n) (hn : n < 0x110000) (us vs : List UInt8) :
    spread (mark (following m)) (following m) m ++ us <
      spread (mark (following n)) (following n) n ++ vs := by
  have hfits : high (following n) n + mark (following n) < 256 := by
    unfold following
    split_ifs <;> simp only [high, mark] <;> omega
  by_cases hsame : following m = following n
  · rw [hsame]
    have hlen : (spread (mark (following n)) (following n) m).length =
        (spread (mark (following n)) (following n) n).length := by
      rw [length_spread, length_spread]
    exact append_lt_append hlen (spread_lt h hfits) us vs
  · have hfirst : high (following m) m + mark (following m) <
        high (following n) n + mark (following n) := by
      unfold following at hsame ⊢
      split_ifs at hsame ⊢ <;> simp only [high, mark] <;> omega
    obtain ⟨as, has⟩ := spread_eq_cons (mark (following m)) (following m) m
    obtain ⟨bs, hbs⟩ := spread_eq_cons (mark (following n)) (following n) n
    rw [has, hbs]
    exact List.cons_lt_cons_iff.2 (.inl (ofNat_lt hfirst hfits))

/-! ### Texts -/

theorem bytes_eq (s : String) : bytes s = s.toList.flatMap String.utf8EncodeChar := by
  rw [bytes, String.toUTF8_eq_toByteArray, ← String.utf8Encode_toList, List.utf8Encode,
    List.toList_data_toByteArray]

theorem flatMap_lt : ∀ {cs ds : List Char}, cs < ds →
    cs.flatMap String.utf8EncodeChar < ds.flatMap String.utf8EncodeChar
  | _, [], h => absurd h (List.not_lt_nil _)
  | [], d :: ds, _ => by
    rw [List.flatMap_nil, List.flatMap_cons]
    cases hd : String.utf8EncodeChar d with
    | nil => exact absurd hd String.utf8EncodeChar_ne_nil
    | cons => exact List.nil_lt_cons _ _
  | c :: cs, d :: ds, h => by
    rw [List.flatMap_cons, List.flatMap_cons]
    rcases List.cons_lt_cons_iff.1 h with hlt | ⟨rfl, hlt⟩
    · rw [utf8EncodeChar_eq_spread, utf8EncodeChar_eq_spread d]
      exact spread_following_lt hlt (toNat_lt d) _ _
    · exact List.append_left_lt (flatMap_lt hlt)

theorem bytes_lt_iff {a b : String} : bytes a < bytes b ↔ a < b := by
  rw [bytes_eq, bytes_eq]
  refine ⟨fun h => show a.toList < b.toList from ?_, flatMap_lt⟩
  rcases Std.lt_trichotomy a.toList b.toList with hlt | heq | hgt
  · exact hlt
  · rw [heq] at h
    exact absurd h (List.lt_irrefl _)
  · exact absurd (flatMap_lt hgt) (List.lt_asymm h)

/-- Texts are in order exactly when their bytes are. -/
theorem bytes_le_iff {a b : String} : bytes a ≤ bytes b ↔ a ≤ b := by
  rw [← List.not_lt, ← String.not_lt, bytes_lt_iff]

end CloudInventory.Text
