/-!
Dictionaries: finite maps from text to values, kept as a list with strictly ascending keys. The
order is that of the code points, which is also the order of the UTF-8 bytes. Since the list is
sorted, two dictionaries with the same lookups are equal (`Dict.ext_get?`), and a listing of one
is a listing in key order.
-/

namespace CloudInventory

/-! ### Sorted entry lists -/

namespace Entries

variable {α : Type}

/-- Keys ascend strictly. -/
def Ascending (es : List (String × α)) : Prop := es.Pairwise fun a b => a.1 < b.1

/-- Set `k` to `v`, at the place its key gives it. -/
def insert (k : String) (v : α) : List (String × α) → List (String × α)
  | [] => [(k, v)]
  | e :: es =>
    if k < e.1 then (k, v) :: e :: es
    else if e.1 < k then e :: insert k v es
    else (k, v) :: es

/-- The value at `k`. -/
def get? (k : String) : List (String × α) → Option α
  | [] => none
  | e :: es => if e.1 = k then some e.2 else get? k es

theorem lt_or_eq_of_not_lt {a b : String} (h : ¬ a < b) : b < a ∨ b = a := by
  by_cases hb : b < a
  · exact .inl hb
  · exact .inr (String.le_antisymm (String.not_lt.1 h) (String.not_lt.1 hb))

theorem mem_insert {k : String} {v : α} : ∀ {es : List (String × α)} {e : String × α},
    e ∈ insert k v es → e = (k, v) ∨ e ∈ es
  | [], e, h => by simpa [insert] using h
  | d :: es, e, h => by
    simp only [insert] at h
    split at h
    · simpa using h
    · split at h
      · rcases List.mem_cons.1 h with rfl | h
        · exact .inr (by simp)
        · rcases mem_insert h with h | h
          · exact .inl h
          · exact .inr (by simp [h])
      · rcases List.mem_cons.1 h with h | h
        · exact .inl h
        · exact .inr (by simp [h])

theorem ascending_insert (k : String) (v : α) : ∀ {es : List (String × α)},
    Ascending es → Ascending (insert k v es)
  | [], _ => List.pairwise_singleton _ _
  | e :: es, h => by
    obtain ⟨h1, h2⟩ := List.pairwise_cons.1 h
    simp only [insert]
    split
    case isTrue hk =>
      refine List.pairwise_cons.2 ⟨fun x hx => ?_, h⟩
      rcases List.mem_cons.1 hx with rfl | hx
      · exact hk
      · exact String.lt_trans hk (h1 x hx)
    case isFalse hk =>
      split
      case isTrue hlt =>
        refine List.pairwise_cons.2 ⟨fun x hx => ?_, ascending_insert k v h2⟩
        rcases mem_insert hx with rfl | hx
        · exact hlt
        · exact h1 x hx
      case isFalse hlt =>
        have he : e.1 = k := (lt_or_eq_of_not_lt hk).resolve_left hlt
        exact List.pairwise_cons.2 ⟨fun x hx => he ▸ h1 x hx, h2⟩

theorem ascending_filter {p : String × α → Bool} {es : List (String × α)} (h : Ascending es) :
    Ascending (es.filter p) := List.Pairwise.filter p h

theorem get?_insert_self (k : String) (v : α) (es : List (String × α)) :
    get? k (insert k v es) = some v := by
  induction es with
  | nil => simp [insert, get?]
  | cons e es ih =>
    simp only [insert]
    split
    · simp [get?]
    · split
      case isTrue hlt =>
        have : e.1 ≠ k := fun he => String.lt_irrefl k (he ▸ hlt)
        simp [get?, this, ih]
      · simp [get?]

theorem get?_insert_of_ne {k j : String} (v : α) (hj : j ≠ k) (es : List (String × α)) :
    get? j (insert k v es) = get? j es := by
  induction es with
  | nil => simp [insert, get?, hj.symm]
  | cons e es ih =>
    simp only [insert]
    split
    · simp [get?, hj.symm]
    · split
      · simp [get?, ih]
      case isFalse hk hlt =>
        have he : e.1 = k := (lt_or_eq_of_not_lt hk).resolve_left hlt
        simp [get?, he, hj.symm]

theorem get?_filter_self (k : String) (es : List (String × α)) :
    get? k (es.filter fun e => e.1 ≠ k) = none := by
  induction es with
  | nil => rfl
  | cons e es ih => by_cases he : e.1 = k <;> simpa [List.filter_cons, get?, he] using ih

theorem get?_filter_of_ne {k j : String} (hj : j ≠ k) (es : List (String × α)) :
    get? j (es.filter fun e => e.1 ≠ k) = get? j es := by
  induction es with
  | nil => rfl
  | cons e es ih =>
    by_cases he : e.1 = k
    · simpa [List.filter_cons, get?, he, hj.symm] using ih
    · simp only [ne_eq, List.filter_cons, he, not_false_eq_true, decide_true, if_true, get?]
      split
      · rfl
      · simpa using ih

theorem get?_eq_none_of_lt {k : String} : ∀ {es : List (String × α)},
    (∀ e ∈ es, k < e.1) → get? k es = none
  | [], _ => rfl
  | e :: es, h => by
    have hne : e.1 ≠ k := fun he => String.lt_irrefl k (he ▸ h e (by simp))
    have hrest : get? k es = none := get?_eq_none_of_lt fun x hx => h x (List.mem_cons_of_mem _ hx)
    simp [get?, hne, hrest]

theorem get?_eq_some_iff_mem {k : String} {v : α} : ∀ {es : List (String × α)}, Ascending es →
    (get? k es = some v ↔ (k, v) ∈ es)
  | [], _ => by simp [get?]
  | e :: es, h => by
    obtain ⟨h1, h2⟩ := List.pairwise_cons.1 h
    by_cases he : e.1 = k
    · simp only [get?, he, if_true, Option.some.injEq, List.mem_cons]
      constructor
      · rintro rfl; exact .inl (by rw [← he])
      · rintro (h' | h')
        · rw [← h']
        · exact absurd (h1 _ h') (by rw [he]; exact String.lt_irrefl k)
    · simp only [get?, he, if_false, List.mem_cons, get?_eq_some_iff_mem h2]
      constructor
      · exact .inr
      · rintro (h' | h')
        · exact absurd (by rw [← h']) he
        · exact h'

/-- Sorted lists with the same lookups are the same list. -/
theorem eq_of_get? : ∀ {as bs : List (String × α)}, Ascending as → Ascending bs →
    (∀ k, get? k as = get? k bs) → as = bs
  | [], [], _, _, _ => rfl
  | [], b :: bs, _, _, h => by have := h b.1; simp [get?] at this
  | a :: as, [], _, _, h => by have := h a.1; simp [get?] at this
  | a :: as, b :: bs, ha, hb, h => by
    obtain ⟨ha1, ha2⟩ := List.pairwise_cons.1 ha
    obtain ⟨hb1, hb2⟩ := List.pairwise_cons.1 hb
    have hkey : a.1 = b.1 := by
      rcases Classical.em (a.1 < b.1) with hlt | hlt
      · have hn : get? a.1 (b :: bs) = none := get?_eq_none_of_lt fun e he => by
          rcases List.mem_cons.1 he with rfl | he
          · exact hlt
          · exact String.lt_trans hlt (hb1 e he)
        have := h a.1
        rw [hn] at this
        simp [get?] at this
      · rcases lt_or_eq_of_not_lt hlt with hgt | heq
        · have hn : get? b.1 (a :: as) = none := get?_eq_none_of_lt fun e he => by
            rcases List.mem_cons.1 he with rfl | he
            · exact hgt
            · exact String.lt_trans hgt (ha1 e he)
          have := h b.1
          rw [hn] at this
          simp [get?] at this
        · exact heq.symm
    have hval : a.2 = b.2 := by
      have := h a.1
      simpa [get?, hkey] using this
    have htail : as = bs := eq_of_get? ha2 hb2 fun k => by
      by_cases hk : a.1 = k
      · rw [get?_eq_none_of_lt (fun e he => hk ▸ ha1 e he),
          get?_eq_none_of_lt (fun e he => hk ▸ hkey ▸ hb1 e he)]
      · have := h k
        simpa [get?, hk, hkey ▸ hk] using this
    rw [htail, Prod.ext hkey hval]

/-- A key above all others goes to the end. -/
theorem insert_of_lt {k : String} {v : α} : ∀ {es : List (String × α)},
    (∀ e ∈ es, e.1 < k) → insert k v es = es ++ [(k, v)]
  | [], _ => rfl
  | e :: es, h => by
    have he : e.1 < k := h e (by simp)
    have hk : ¬ k < e.1 := fun hk => String.lt_irrefl k (String.lt_trans hk he)
    simp [insert, he, hk, insert_of_lt fun x hx => h x (List.mem_cons_of_mem _ hx)]

end Entries

/-! ### Dictionaries -/

/-- A finite map from text to `α`. -/
structure Dict (α : Type) where
  entries : List (String × α)
  ascending : Entries.Ascending entries

namespace Dict

variable {α β : Type}

instance [DecidableEq α] : DecidableEq (Dict α) := fun a b =>
  match decEq a.entries b.entries with
  | isTrue h => isTrue (by cases a; cases b; cases h; rfl)
  | isFalse h => isFalse fun he => h (he ▸ rfl)

/-- No entries. -/
def empty : Dict α := ⟨[], List.Pairwise.nil⟩

instance : Inhabited (Dict α) := ⟨empty⟩

/-- The value at `k`. -/
def get? (d : Dict α) (k : String) : Option α := Entries.get? k d.entries

/-- Set `k` to `v`. -/
def insert (d : Dict α) (k : String) (v : α) : Dict α :=
  ⟨Entries.insert k v d.entries, Entries.ascending_insert k v d.ascending⟩

/-- Remove `k`. -/
def erase (d : Dict α) (k : String) : Dict α :=
  ⟨d.entries.filter fun e => e.1 ≠ k, Entries.ascending_filter d.ascending⟩

/-- Set every pair in turn, so that a later one wins. -/
def insertAll (d : Dict α) (pairs : List (String × α)) : Dict α :=
  pairs.foldl (fun d e => d.insert e.1 e.2) d

/-- The dictionary of `pairs`; the last of several with one key wins. -/
def ofList (pairs : List (String × α)) : Dict α := empty.insertAll pairs

/-- The entries in key order. -/
def toList (d : Dict α) : List (String × α) := d.entries

/-- The keys in order. -/
def keys (d : Dict α) : List String := d.entries.map (·.1)

/-- The values in key order. -/
def values (d : Dict α) : List α := d.entries.map (·.2)

/-- How many entries there are. -/
def size (d : Dict α) : Nat := d.entries.length

/-! ### Laws -/

@[simp] theorem get?_empty (k : String) : (empty : Dict α).get? k = none := rfl

theorem get?_insert (d : Dict α) (k j : String) (v : α) :
    (d.insert k v).get? j = if j = k then some v else d.get? j := by
  by_cases h : j = k
  · subst h; simp [get?, insert, Entries.get?_insert_self]
  · simp [get?, insert, Entries.get?_insert_of_ne v h, h]

theorem get?_erase (d : Dict α) (k j : String) :
    (d.erase k).get? j = if j = k then none else d.get? j := by
  by_cases h : j = k
  · rw [if_pos h, h]; exact Entries.get?_filter_self k d.entries
  · rw [if_neg h]; exact Entries.get?_filter_of_ne h d.entries

/-- Dictionaries with the same lookups are equal. -/
theorem ext_get? {a b : Dict α} (h : ∀ k, a.get? k = b.get? k) : a = b := by
  have := Entries.eq_of_get? a.ascending b.ascending h
  cases a; cases b; cases this; rfl

theorem toList_insertAll_of_ascending : ∀ {pairs : List (String × α)} {d : Dict α},
    Entries.Ascending (d.toList ++ pairs) → (d.insertAll pairs).toList = d.toList ++ pairs
  | [], d, _ => by simp [insertAll]
  | (k, v) :: pairs, d, h => by
    have hlt : ∀ e ∈ d.entries, e.1 < k := fun e he =>
      (List.pairwise_append.1 h).2.2 e he (k, v) (by simp)
    have hins : (d.insert k v).toList = d.toList ++ [(k, v)] := Entries.insert_of_lt hlt
    have hrest : Entries.Ascending ((d.insert k v).toList ++ pairs) := by
      rw [hins, List.append_assoc]; exact h
    have := toList_insertAll_of_ascending hrest
    rw [hins, List.append_assoc] at this
    exact this

/-- A sorted list is the listing of its dictionary. -/
theorem toList_ofList {pairs : List (String × α)} (h : Entries.Ascending pairs) :
    (ofList pairs).toList = pairs := by
  have := @toList_insertAll_of_ascending _ pairs empty (by simpa [toList, empty] using h)
  simpa [ofList, toList, empty] using this

theorem get?_eq_some_iff {d : Dict α} {k : String} {v : α} :
    d.get? k = some v ↔ (k, v) ∈ d.toList :=
  Entries.get?_eq_some_iff_mem d.ascending

/-- The first of the values is the one under the least key. -/
theorem head?_values_eq_some_iff {d : Dict α} {v : α} :
    d.values.head? = some v ↔
      ∃ k, d.get? k = some v ∧ ∀ other v', d.get? other = some v' → k ≤ other := by
  simp only [get?_eq_some_iff]
  obtain ⟨_ | ⟨e, es⟩, hascending⟩ := d
  · simp [values, toList]
  have hless : ∀ e' ∈ es, e.1 < e'.1 := fun e' => List.rel_of_pairwise_cons hascending
  have hvalues : (⟨e :: es, hascending⟩ : Dict α).values.head? = some e.2 := rfl
  rw [hvalues, Option.some.injEq]
  constructor
  · rintro rfl
    refine ⟨e.1, List.mem_cons_self, fun other v' hmem => ?_⟩
    rcases List.mem_cons.1 hmem with rfl | hmem
    · exact String.le_refl _
    · exact String.not_lt.1 fun hgt =>
        String.lt_irrefl _ (String.lt_trans hgt (hless _ hmem))
  · rintro ⟨k, hmem, hleast⟩
    rcases List.mem_cons.1 hmem with rfl | hmem
    · rfl
    · exact absurd (hless _ hmem) (String.not_lt.2 (hleast _ _ List.mem_cons_self))

/-- The keys are what can be looked up. -/
theorem mem_keys_iff {d : Dict α} {k : String} : k ∈ d.keys ↔ (d.get? k).isSome := by
  rw [Option.isSome_iff_exists]
  simp only [get?_eq_some_iff]
  constructor
  · intro h
    obtain ⟨⟨_, v⟩, hv, rfl⟩ := List.mem_map.1 h
    exact ⟨v, hv⟩
  · rintro ⟨v, hv⟩
    exact List.mem_map.2 ⟨(k, v), hv, rfl⟩

/-- No key is listed twice. -/
theorem nodup_keys (d : Dict α) : d.keys.Nodup :=
  List.Pairwise.map _ (fun _ _ h he => String.lt_irrefl _ (he ▸ h)) d.ascending

end Dict

end CloudInventory
