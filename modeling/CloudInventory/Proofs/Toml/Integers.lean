import CloudInventory.Proofs.Json.Coding
import CloudInventory.Toml.Document

/-!
Integers in TOML texts. Whatever is read from a text, an integer that stands anywhere in it has 64
bits with a sign: scalars are turned away when they have more, and putting values into arrays,
tables and documents keeps the integers that they have.
-/

namespace CloudInventory

/-! ### Integers of terms -/

/-- An integer has 64 bits with a sign. -/
def Number.Signed : Number → Prop
  | int n => -Int.pow 2 63 ≤ n ∧ n < Int.pow 2 63
  | real _ => True

namespace Term

/-- A number is the term, or stands somewhere in it. -/
inductive Has (n : Number) : Term → Prop where
  | here : Has n (num n)
  | part {s t : Term} : s.PartOf t → Has n s → Has n t

/-- All integers have 64 bits with a sign. -/
def Signed (t : Term) : Prop := ∀ n, Has n t → n.Signed

theorem Signed.part {s t : Term} (ht : t.Signed) (h : s.PartOf t) : s.Signed :=
  fun n hn => ht n (.part h hn)

theorem signed_of_parts {t : Term} (hnum : ∀ n, t ≠ num n)
    (hparts : ∀ s : Term, s.PartOf t → s.Signed) : t.Signed := by
  intro n hn
  cases hn with
  | here => exact absurd rfl (hnum n)
  | part hs hn => exact hparts _ hs n hn

@[simp] theorem signed_num {n : Number} : (num n).Signed ↔ n.Signed := by
  refine ⟨fun h => h n .here, fun h m hm => ?_⟩
  cases hm with
  | here => exact h
  | part hs => cases hs

@[simp] theorem signed_str (s : String) : (str s).Signed := signed_of_parts nofun nofun

@[simp] theorem signed_bool (b : Bool) : (bool b).Signed := signed_of_parts nofun nofun

@[simp] theorem signed_unreadable : unreadable.Signed := signed_of_parts nofun nofun

@[simp] theorem signed_arr {items : List Term} : (arr items).Signed ↔ ∀ t ∈ items, t.Signed := by
  refine ⟨fun h t ht => h.part (.item ht), fun h => signed_of_parts nofun fun s hs => ?_⟩
  cases hs with
  | item hs => exact h s hs

@[simp] theorem signed_obj {members : List (String × Term)} :
    (obj members).Signed ↔ ∀ m ∈ members, m.2.Signed := by
  refine ⟨fun h m hm => h.part (.member hm), fun h => signed_of_parts nofun fun s hs => ?_⟩
  cases hs with
  | member hs => exact h _ hs

end Term

namespace Toml

/-! ### Scalars -/

section Scalars

variable {t : Term} {cs rest : List Char}

theorem signed_int64? {n : Int} (h : int64? n = some t) : t.Signed := by
  unfold int64? at h
  split at h
  case isTrue hn =>
    cases h
    exact Term.signed_num.2 hn
  case isFalse => cases h

theorem signed_based? {base : Nat} {isDigit : Char → Bool}
    (h : based? base isDigit cs = some (t, rest)) : t.Signed := by
  obtain ⟨_, -, h⟩ := Option.bind_eq_some_iff.1 h
  obtain ⟨t', ht, he⟩ := Option.map_eq_some_iff.1 h
  cases he
  exact signed_int64? ht

theorem signed_integer? (h : integer? cs = some (t, rest)) : t.Signed := by
  unfold integer? at h
  split at h
  case h_4 =>
    obtain ⟨_, -, h⟩ := Option.bind_eq_some_iff.1 h
    obtain ⟨t', ht, he⟩ := Option.map_eq_some_iff.1 h
    cases he
    exact signed_int64? ht
  all_goals exact signed_based? h

/-- A number with a fraction or an exponent is no integer. -/
theorem signed_realOf? {negative : Bool} {ds : List Char} {e : Int}
    (h : realOf? negative ds e = some t) : t.Signed := by
  unfold realOf? at h
  dsimp only at h
  split at h
  · cases h
    exact Term.signed_num.2 trivial
  · split at h
    · cases h
      exact Term.signed_unreadable
    · cases h

theorem signed_real {negative : Bool} {ds : List Char} {e : Int} {behind : List Char}
    (h : (realOf? negative ds e).map (fun t => (t, behind)) = some (t, rest)) : t.Signed := by
  obtain ⟨t', ht, he⟩ := Option.map_eq_some_iff.1 h
  cases he
  exact signed_realOf? ht

theorem signed_float? (h : float? cs = some (t, rest)) : t.Signed := by
  -- whatever stands behind the whole part, it is `realOf?` that gives the term
  unfold float? at h
  split at h
  rename_i negative body _
  dsimp only at h
  split at h
  · cases h
    exact Term.signed_unreadable
  · cases h
    exact Term.signed_unreadable
  · obtain ⟨⟨whole, behind⟩, -, h⟩ := Option.bind_eq_some_iff.1 h
    dsimp only at h
    split at h
    · obtain ⟨⟨fraction, behind⟩, -, h⟩ := Option.bind_eq_some_iff.1 h
      dsimp only at h
      split at h
      · split at h
        · obtain ⟨_, -, h⟩ := Option.bind_eq_some_iff.1 h
          exact signed_real h
        · exact signed_real h
      · exact signed_real h
    · obtain ⟨_, -, h⟩ := Option.bind_eq_some_iff.1 h
      exact signed_real h

theorem signed_numeral? (h : numeral? cs = some (t, rest)) : t.Signed := by
  unfold numeral? at h
  split at h
  · cases h
    simp [momentTerm]
  · rcases Option.or_eq_some_iff.1 h with h | ⟨-, h⟩
    · exact signed_float? h
    · exact signed_integer? h

end Scalars

/-! ### Inline tables -/

namespace Inline

theorem entry?_eq_get? (key : String) (entries : List (String × Inline)) :
    entry? key entries = Entries.get? key entries := by
  induction entries with
  | nil => rfl
  | cons e entries ih =>
    rw [Entries.get?, ← ih]
    rfl

theorem terms_eq_map (entries : List (String × Inline)) :
    terms entries = entries.map fun e => (e.1, e.2.term) := by
  induction entries with
  | nil => rfl
  | cons e entries ih => rw [terms, ih, List.map_cons]

theorem eq_or_mem_of_mem_replace {key : String} {v : Inline} {e : String × Inline} :
    ∀ {entries : List (String × Inline)}, e ∈ replace key v entries → e.2 = v ∨ e ∈ entries
  | [], h => nomatch h
  | (k, w) :: entries, h => by
    rw [replace] at h
    split at h
    · exact (List.mem_cons.1 h).imp (congrArg Prod.snd) (List.mem_cons_of_mem _)
    · rcases List.mem_cons.1 h with rfl | h
      · exact .inr List.mem_cons_self
      · exact (eq_or_mem_of_mem_replace h).imp_right (List.mem_cons_of_mem _)

/-- All integers of a table have 64 bits with a sign. -/
def AllSigned (entries : List (String × Inline)) : Prop := ∀ e ∈ entries, e.2.term.Signed

theorem signed_table {entries : List (String × Inline)} :
    (table entries).term.Signed ↔ AllSigned entries := by
  rw [term, terms_eq_map, Term.signed_obj, List.forall_mem_map]
  rfl

theorem AllSigned.append {entries : List (String × Inline)} (h : AllSigned entries) {key : String}
    {v : Inline} (hv : v.term.Signed) : AllSigned (entries ++ [(key, v)]) :=
  List.forall_mem_append.2 ⟨h, List.forall_mem_singleton.2 hv⟩

theorem AllSigned.insert? {v : Inline} (hv : v.term.Signed) : ∀ {path : List String}
    {entries entries' : List (String × Inline)}, AllSigned entries →
    insert? v path entries = some entries' → AllSigned entries'
  | [], _, _, _, h => nomatch h
  | [key], entries, _, hentries, h => by
    rw [Inline.insert?] at h
    split at h
    · cases h
      exact hentries.append hv
    · cases h
  | key :: next :: path, entries, _, hentries, h => by
    unfold Inline.insert? at h
    split at h
    · obtain ⟨inner, hinner, rfl⟩ := Option.map_eq_some_iff.1 h
      exact hentries.append (signed_table.2 (AllSigned.insert? hv (List.forall_mem_nil _) hinner))
    · next inner hentry =>
      obtain ⟨inner', hinner, rfl⟩ := Option.map_eq_some_iff.1 h
      rw [entry?_eq_get?] at hentry
      have hold : AllSigned inner := signed_table.1 (hentries _ (Entries.mem_of_get? hentry))
      intro e he
      rcases eq_or_mem_of_mem_replace he with he | he
      · exact he ▸ signed_table.2 (AllSigned.insert? hv hold hinner)
      · exact hentries e he
    · cases h

end Inline

/-! ### Values -/

/-- With so much fuel, everything that is read has integers of 64 bits with a sign only. -/
structure ReadsSigned (fuel : Nat) : Prop where
  value : ∀ {depth cs t rest}, valueWithin? fuel depth cs = some (t, rest) → t.Signed
  items : ∀ {depth comma cs ts rest}, itemsWithin? fuel depth comma cs = some (ts, rest) →
    ∀ t ∈ ts, t.Signed
  pairs : ∀ {depth entries cs entries' rest}, Inline.AllSigned entries →
    pairsWithin? fuel depth entries cs = some (entries', rest) → Inline.AllSigned entries'

namespace ReadsSigned

variable {fuel depth : Nat} {cs rest : List Char}

theorem value_succ (ih : ReadsSigned fuel) {t : Term}
    (h : valueWithin? (fuel + 1) depth cs = some (t, rest)) : t.Signed := by
  unfold valueWithin? at h
  split at h
  case h_1 | h_2 =>
    obtain ⟨p, -, he⟩ := Option.map_eq_some_iff.1 h
    cases he
    exact Term.signed_str _
  case h_3 =>
    split at h
    · cases h
    · obtain ⟨p, hp, he⟩ := Option.map_eq_some_iff.1 h
      cases he
      exact Term.signed_arr.2 (ih.items hp)
  case h_4 =>
    split at h
    · cases h
    · split at h
      · cases h
        exact Term.signed_obj.2 (List.forall_mem_nil _)
      · obtain ⟨p, hp, he⟩ := Option.map_eq_some_iff.1 h
        cases he
        exact Inline.signed_table.2 (ih.pairs (List.forall_mem_nil _) hp)
  case h_5 | h_6 =>
    cases h
    exact Term.signed_bool _
  case h_7 => exact signed_numeral? h

theorem items_succ (ih : ReadsSigned fuel) {comma : Bool} {ts : List Term}
    (h : itemsWithin? (fuel + 1) depth comma cs = some (ts, rest)) : ∀ t ∈ ts, t.Signed := by
  rw [itemsWithin?] at h
  split at h
  · cases h
    simp
  · split at h
    · cases h
    · split at h
      · split at h
        · cases h
          simp
        · cases h
      · split at h
        · cases h
        · next t behind ht =>
          obtain ⟨p, hp, he⟩ := Option.map_eq_some_iff.1 h
          cases he
          exact List.forall_mem_cons.2 ⟨ih.value ht, ih.items hp⟩

theorem pairs_succ (ih : ReadsSigned fuel) {entries entries' : List (String × Inline)}
    (hentries : Inline.AllSigned entries)
    (h : pairsWithin? (fuel + 1) depth entries cs = some (entries', rest)) :
    Inline.AllSigned entries' := by
  rw [pairsWithin?] at h
  split at h
  · cases h
  · split at h
    · cases h
    · next t behind ht =>
      obtain ⟨_, -, ht⟩ := Option.bind_eq_some_iff.1 ht
      split at h
      · cases h
      · next more hmore =>
        have hmore := hentries.insert? (v := .leaf t) (ih.value ht) hmore
        split at h
        · cases h
          exact hmore
        · exact ih.pairs hmore h
        · cases h

end ReadsSigned

theorem readsSigned : ∀ fuel, ReadsSigned fuel
  | 0 => ⟨nofun, nofun, nofun⟩
  | fuel + 1 => ⟨(readsSigned fuel).value_succ, (readsSigned fuel).items_succ,
    (readsSigned fuel).pairs_succ⟩

/-! ### Documents -/

namespace Node

theorem entry?_eq_get? (key : String) (entries : List (String × Node)) :
    entry? key entries = Entries.get? key entries := by
  induction entries with
  | nil => rfl
  | cons e entries ih =>
    rw [Entries.get?, ← ih]
    rfl

theorem members_eq_map (entries : List (String × Node)) :
    members entries = entries.map fun e => (e.1, e.2.term) := by
  induction entries with
  | nil => rfl
  | cons e entries ih => rw [members, ih, List.map_cons]

theorem lists_eq_map (items : List (List (String × Node))) :
    lists items = items.map fun entries => .obj (members entries) := by
  induction items with
  | nil => rfl
  | cons entries items ih => rw [lists, ih, List.map_cons]

theorem eq_or_mem_of_mem_set {key : String} {n : Node} {e : String × Node} :
    ∀ {entries : List (String × Node)}, e ∈ set key n entries → e.2 = n ∨ e ∈ entries
  | [], h => .inl (congrArg Prod.snd (List.mem_singleton.1 h))
  | (k, m) :: entries, h => by
    rw [set] at h
    split at h
    · exact (List.mem_cons.1 h).imp (congrArg Prod.snd) (List.mem_cons_of_mem _)
    · rcases List.mem_cons.1 h with rfl | h
      · exact .inr List.mem_cons_self
      · exact (eq_or_mem_of_mem_set h).imp_right (List.mem_cons_of_mem _)

/-- All integers of a table have 64 bits with a sign. -/
def AllSigned (entries : List (String × Node)) : Prop := ∀ e ∈ entries, e.2.term.Signed

theorem signed_table {origin : Origin} {entries : List (String × Node)} :
    (table origin entries).term.Signed ↔ AllSigned entries := by
  rw [term, members_eq_map, Term.signed_obj, List.forall_mem_map]
  rfl

theorem signed_tables {items : List (List (String × Node))} :
    (tables items).term.Signed ↔ ∀ entries ∈ items, AllSigned entries := by
  rw [term, lists_eq_map, Term.signed_arr, List.forall_mem_map]
  exact forall₂_congr fun entries _ => @signed_table .key entries

theorem AllSigned.set {entries : List (String × Node)} (h : AllSigned entries) {key : String}
    {n : Node} (hn : n.term.Signed) : AllSigned (Node.set key n entries) := by
  intro e he
  rcases eq_or_mem_of_mem_set he with he | he
  · exact he ▸ hn
  · exact h e he

theorem AllSigned.of_mem {entries : List (String × Node)} (h : AllSigned entries) {key : String}
    {n : Node} (hn : Node.entry? key entries = some n) : n.term.Signed := by
  rw [entry?_eq_get?] at hn
  exact h _ (Entries.mem_of_get? hn)

/-- A change to a table keeps its integers within 64 bits with a sign. -/
def KeepsSigned (f : List (String × Node) → Option (List (String × Node))) : Prop :=
  ∀ ⦃entries entries'⦄, f entries = some entries' → AllSigned entries → AllSigned entries'

theorem allSigned_changeLast? {f : List (String × Node) → Option (List (String × Node))}
    (hf : KeepsSigned f) : ∀ {items items' : List (List (String × Node))},
    changeLast? f items = some items' → (∀ entries ∈ items, AllSigned entries) →
    ∀ entries ∈ items', AllSigned entries
  | [], _, h, _ => nomatch h
  | [entries], _, h, hitems => by
    obtain ⟨entries', hchange, rfl⟩ := Option.map_eq_some_iff.1 h
    exact List.forall_mem_singleton.2 (hf hchange (hitems _ List.mem_cons_self))
  | first :: next :: items, _, h, hitems => by
    obtain ⟨items', hchange, rfl⟩ := Option.map_eq_some_iff.1 h
    obtain ⟨hfirst, hitems⟩ := List.forall_mem_cons.1 hitems
    exact List.forall_mem_cons.2 ⟨hfirst, allSigned_changeLast? hf hchange hitems⟩

/-- So does a change to the table that a path leads to. -/
theorem keepsSigned_changeAt? {origin : Origin}
    {f : Origin → List (String × Node) → Option (List (String × Node))}
    (hf : ∀ here, KeepsSigned (f here)) (path : List String) (here : Origin) :
    KeepsSigned (changeAt? origin f here path) := by
  induction path generalizing here with
  | nil => exact hf here
  | cons key path ih =>
    intro entries entries' h hentries
    rw [changeAt?] at h
    split at h
    case h_1 =>
      obtain ⟨inner, hinner, rfl⟩ := Option.map_eq_some_iff.1 h
      exact hentries.set (signed_table.2 (ih _ hinner (List.forall_mem_nil _)))
    case h_2 o inner hentry =>
      split at h
      · cases h
      · obtain ⟨inner', hinner, rfl⟩ := Option.map_eq_some_iff.1 h
        have hold : AllSigned inner := signed_table.1 (hentries.of_mem hentry)
        exact hentries.set (signed_table.2 (ih _ hinner hold))
    case h_3 items hentry =>
      obtain ⟨items', hitems, rfl⟩ := Option.map_eq_some_iff.1 h
      have hold := signed_tables.1 (hentries.of_mem hentry)
      exact hentries.set (signed_tables.2 (allSigned_changeLast? (ih _) hitems hold))
    case h_4 => cases h

theorem keepsSigned_openTable? (key : String) : KeepsSigned (openTable? key) := by
  intro entries entries' h hentries
  unfold openTable? at h
  split at h
  · cases h
    exact hentries.set (signed_table.2 (List.forall_mem_nil _))
  · next inner hentry =>
    cases h
    exact hentries.set (signed_table.2 (signed_table.1 (hentries.of_mem hentry)))
  · cases h

theorem keepsSigned_appendTable? (key : String) : KeepsSigned (appendTable? key) := by
  intro entries entries' h hentries
  unfold appendTable? at h
  split at h
  · cases h
    exact hentries.set (signed_tables.2 (List.forall_mem_singleton.2 (List.forall_mem_nil _)))
  · next items hentry =>
    cases h
    refine hentries.set (signed_tables.2 (List.forall_mem_append.2 ⟨?_, ?_⟩))
    · exact signed_tables.1 (hentries.of_mem hentry)
    · exact List.forall_mem_singleton.2 (List.forall_mem_nil _)
  · cases h

theorem keepsSigned_addValue? {single : Bool} {key : String} {t : Term} (ht : t.Signed)
    (here : Origin) : KeepsSigned (addValue? single key t here) := by
  intro entries entries' h hentries
  unfold addValue? at h
  split at h
  · cases h
  · split at h
    · cases h
      exact hentries.set ht
    · cases h

end Node

namespace Draft

variable {d d' : Draft}

theorem signed_assign? {path : List String} {t : Term} (ht : t.Signed)
    (h : d.assign? path t = some d') (hd : Node.AllSigned d.root) : Node.AllSigned d'.root := by
  unfold assign? at h
  split at h
  · cases h
  · obtain ⟨root, hroot, rfl⟩ := Option.map_eq_some_iff.1 h
    refine Node.keepsSigned_changeAt? (fun here => ?_) _ _ hroot hd
    exact Node.keepsSigned_changeAt? (Node.keepsSigned_addValue? ht) _ _

theorem signed_header? {array : Bool} {path : List String} (h : d.header? array path = some d')
    (hd : Node.AllSigned d.root) : Node.AllSigned d'.root := by
  unfold header? at h
  split at h
  · cases h
  · next key _ =>
    obtain ⟨root, hroot, rfl⟩ := Option.map_eq_some_iff.1 h
    refine Node.keepsSigned_changeAt? (fun here => ?_) _ _ hroot hd
    cases array with
    | true => exact Node.keepsSigned_appendTable? key
    | false => exact Node.keepsSigned_openTable? key

theorem signed_line? {cs rest : List Char} (h : d.line? cs = some (d', rest))
    (hd : Node.AllSigned d.root) : Node.AllSigned d'.root := by
  unfold line? at h
  split at h
  case h_3 =>
    simp only [Option.bind_eq_bind, Option.bind_eq_some_iff, Option.pure_def, Option.some.injEq,
      Prod.mk.injEq] at h
    obtain ⟨_, -, _, -, ⟨t, _⟩, ht, _, -, d'', hd', rfl, -⟩ := h
    exact signed_assign? ((readsSigned _).value ht) hd' hd
  all_goals
    simp only [Option.bind_eq_bind, Option.bind_eq_some_iff, Option.pure_def, Option.some.injEq,
      Prod.mk.injEq] at h
  · obtain ⟨_, -, _, -, _, -, _, -, d'', hd', rfl, -⟩ := h
    exact signed_header? hd' hd
  · obtain ⟨_, -, _, -, _, -, d'', hd', rfl, -⟩ := h
    exact signed_header? hd' hd

theorem signed_lines? : ∀ {fuel : Nat} {d : Draft} {cs : List Char}, lines? fuel d cs = some d' →
    Node.AllSigned d.root → Node.AllSigned d'.root
  | 0, _, _, h, _ => nomatch h
  | fuel + 1, d, cs, h, hd => by
    rw [lines?] at h
    split at h
    · cases h
      exact hd
    · obtain ⟨_, -, h⟩ := Option.bind_eq_some_iff.1 h
      exact signed_lines? h hd
    · split at h
      · exact signed_lines? h hd
      · obtain ⟨p, hp, h⟩ := Option.bind_eq_some_iff.1 h
        exact signed_lines? h (signed_line? hp hd)

end Draft

/-- All integers that a text says have 64 bits with a sign. -/
theorem signed_of_read? {text : String} {t : Term} (h : read? text = some t) : t.Signed := by
  obtain ⟨d, hd, rfl⟩ := Option.map_eq_some_iff.1 h
  have hroot : Node.AllSigned d.root := Draft.signed_lines? hd (List.forall_mem_nil _)
  exact (@Node.signed_table .header d.root).2 hroot

end Toml

end CloudInventory
