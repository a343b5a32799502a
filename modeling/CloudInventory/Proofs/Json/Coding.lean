import CloudInventory.Json.Decoder
import CloudInventory.Proofs.Json.Nesting

/-!
Reading back what has been written. A structure is written as an object of all its fields, so
that each of them is found again under its name (`fields?_object`). `Faithful` says of a reader
and a writer that what the one reads it reads again from what the other writes, and that nothing
gets deeper; it passes from parts to lists and to fields.
-/

namespace CloudInventory

theorem Entries.get?_map {α β : Type} (f : α → β) (k : String) (es : List (String × α)) :
    get? k (es.map fun e => (e.1, f e.2)) = (get? k es).map f := by
  induction es with
  | nil => rfl
  | cons e es ih =>
    simp only [List.map_cons, get?, ih]
    split <;> rfl

theorem Entries.mem_of_get? {α : Type} {k : String} {v : α} {es : List (String × α)}
    (h : get? k es = some v) : (k, v) ∈ es := by
  induction es with
  | nil => cases h
  | cons e es ih =>
    rw [get?] at h
    split at h
    case isTrue hk => rw [← hk, ← Option.some.inj h]; exact List.mem_cons_self
    case isFalse => exact List.mem_cons_of_mem _ (ih h)

/-! ### The fields of what has been written -/

namespace Fields

variable {α : Type}

/-- The fields that an object gives. -/
def given (members : List (String × Json)) : Fields :=
  ⟨false, fun name => (Dict.lastOf name members).map Json.term⟩

@[simp] theorem slot_given_nil (name : String) : (given []).slot name = none := rfl

@[simp] theorem slot_given_cons (k name : String) (j : Json) (members : List (String × Json)) :
    (given ((k, j) :: members)).slot name =
      ((given members).slot name).or (if k = name then some j.term else none) := by
  simp only [given, Dict.lastOf_cons, Option.map_or, apply_ite (Option.map Json.term),
    Option.map_some, Option.map_none]

@[simp] theorem required_given (members : List (String × Json)) (name : String)
    (value? : Term → Option α) :
    (given members).required name value? = ((given members).slot name).bind value? := rfl

@[simp] theorem optional_given (members : List (String × Json)) (name : String)
    (value? : Term → Option α) :
    (given members).optional name value? =
      ((given members).slot name).elim (some none) (Term.nullable? value?) := by
  rw [optional]
  cases (given members).slot name <;> rfl

@[simp] theorem defaulted_given (members : List (String × Json)) (name : String) (default : α)
    (value? : Term → Option α) :
    (given members).defaulted name default value? =
      ((given members).slot name).elim (some default) value? := by
  rw [defaulted]
  cases (given members).slot name <;> rfl

end Fields

namespace Term

theorem occurrences_eq_count (name : String) (members : List (String × Term)) :
    occurrences name members = (members.map Prod.fst).count name := by
  rw [occurrences, ← List.countP_eq_length_filter, List.count, List.countP_map]
  exact List.countP_congr fun m _ => by simp

/-- No member of a written object comes twice, so all its fields are found. -/
@[simp] theorem members?_object (names : List String) (members : List (String × Json)) :
    (Json.object members).term.members? names = some (Fields.given members) := by
  have hkeys : ((Dict.ofList members).toList.map Prod.fst).Nodup := Dict.nodup_keys _
  have honce : ¬ names.any fun name =>
      1 < occurrences name (Json.termMembers (Dict.ofList members).toList) := by
    simp only [occurrences_eq_count, Json.termMembers_eq_map, List.map_map, List.any_eq_true,
      decide_eq_true_eq, not_exists, not_and, Nat.not_lt]
    exact fun name _ => List.nodup_iff_count.1 hkeys name
  rw [Json.object, Json.term, members?, if_neg honce, Fields.given]
  congr
  funext name
  rw [Json.termMembers_eq_map, Entries.get?_map, ← Dict.get?_ofList]
  rfl

@[simp] theorem fieldsWith?_object (surplus : Bool) (names : List String)
    (members : List (String × Json)) :
    (Json.object members).term.fieldsWith? surplus names = some (Fields.given members) := by
  rw [← members?_object names, Json.object, Json.term, fieldsWith?]
  nofun

@[simp] theorem fields?_object (names : List String) (members : List (String × Json)) :
    (Json.object members).term.fields? names = some (Fields.given members) :=
  fieldsWith?_object false names members

@[simp] theorem fields?_null (names : List String) : fields? names .null = none := rfl

/-! ### Readers of written parts -/

variable {α : Type} {value? : Term → Option α} {json : α → Json}

@[simp] theorem text?_str (s : String) : text? (Json.str s).term = some s := rfl

@[simp] theorem flag?_bool (b : Bool) : flag? (Json.bool b).term = some b := rfl

@[simp] theorem nullable?_ofOption (s : Option String) :
    (Json.ofOption s).term.nullable? text? = some s := by
  cases s <;> rfl

@[simp] theorem nullable?_null : Json.null.term.nullable? value? = some none := rfl

theorem nullable?_of_ne_null {t : Term} (h : t ≠ null) :
    t.nullable? value? = (value? t).map some := by
  cases t with
  | null => exact absurd rfl h
  | _ => rfl

/-- An optional part is written as null when it is absent. -/
@[simp] theorem nullable?_getD {o : Option α} (hnull : value? .null = none)
    (h : ∀ a ∈ o, value? (json a).term = some a) :
    ((o.map json).getD .null).term.nullable? value? = some o := by
  cases o with
  | none => rfl
  | some a =>
    have ha : value? (json a).term = some a := h a rfl
    have hne : (json a).term ≠ null := fun he => by rw [he, hnull] at ha; cases ha
    rw [Option.map_some, Option.getD_some, nullable?_of_ne_null hne, ha, Option.map_some]

@[simp] theorem list?_nil : list? value? (Json.arr []).term = some [] := rfl

@[simp] theorem list?_map {as : List α} (h : ∀ a ∈ as, value? (json a).term = some a) :
    list? value? (Json.arr (as.map json)).term = some as := by
  rw [Json.term, Json.termItems_eq_map, list?, List.map_map]
  induction as with
  | nil => rfl
  | cons a as ih =>
    simp [h a List.mem_cons_self, ih fun b hb => h b (List.mem_cons_of_mem _ hb)]

@[simp] theorem textDict?_ofStrDict (d : Dict String) :
    textDict? (Json.ofStrDict d).term = some d := by
  have hmembers (es : List (String × String)) :
      (Json.termMembers (es.map fun e => (e.1, .str e.2))).mapM
        (fun m => (text? m.2).map fun v => (m.1, v)) = some es := by
    induction es with
    | nil => rfl
    | cons e es ih => simp [Json.termMembers, ih]
  rw [Json.ofStrDict, Json.term, textDict?, dict?, hmembers, Option.map_some, Dict.ofList_toList]

/-! ### Parts of what is read -/

/-- Each item of a list is read from an item. -/
theorem mem_of_mapM {ts : List Term} {as : List α} {a : α} (h : ts.mapM value? = some as)
    (ha : a ∈ as) : ∃ t ∈ ts, value? t = some a := by
  induction ts generalizing as with
  | nil => cases h; cases ha
  | cons t ts ih =>
    simp only [List.mapM_cons, Option.bind_eq_bind, Option.bind_eq_some_iff, Option.pure_def,
      Option.some.injEq] at h
    obtain ⟨b, hb, bs, hbs, rfl⟩ := h
    rcases List.mem_cons.1 ha with rfl | ha
    · exact ⟨t, List.mem_cons_self, hb⟩
    · obtain ⟨t', ht', h⟩ := ih hbs ha
      exact ⟨t', List.mem_cons_of_mem _ ht', h⟩

/-- A term is an item of a list, or the value of a member of an object. -/
inductive PartOf (s : Term) : Term → Prop where
  | item {items : List Term} : s ∈ items → PartOf s (arr items)
  | member {name : String} {members : List (String × Term)} : (name, s) ∈ members →
    PartOf s (obj members)

theorem partOf_of_members? {t s : Term} {names : List String} {f : Fields} {name : String}
    (hf : t.members? names = some f) (hs : f.slot name = some s) : s.PartOf t := by
  cases t with
  | obj members =>
    rw [members?] at hf
    split at hf
    · cases hf
    · cases hf
      exact .member (Entries.mem_of_get? hs)
  | _ => cases hf

/-- The fields of a structure are parts of the term that says it. -/
theorem partOf_of_slot {t s : Term} {surplus : Bool} {names : List String} {f : Fields}
    {name : String} (hf : t.fieldsWith? surplus names = some f) (hs : f.slot name = some s) :
    s.PartOf t := by
  cases t with
  | arr items =>
    rw [fieldsWith?] at hf
    split at hf
    · cases hf
    · cases hf
      exact .item (List.mem_of_getElem? hs)
  | obj members => exact partOf_of_members? (show members? names (obj members) = some f from hf) hs
  | _ => cases hf

/-- The parts of a term are less deep by one. -/
theorem Within.part {t s : Term} {depth : Nat} (ht : t.Within (depth + 1)) (h : s.PartOf t) :
    s.Within depth := by
  cases h with
  | item hs => exact within_arr.1 ht s hs
  | member hs => exact within_obj.1 ht _ hs

/-- The fields of a structure are less deep by one. -/
theorem Within.slot {t s : Term} {names : List String} {f : Fields} {name : String} {depth : Nat}
    (ht : t.Within (depth + 1)) (hf : t.fields? names = some f) (hs : f.slot name = some s) :
    s.Within depth :=
  ht.part (partOf_of_slot hf hs)

/-- What `value?` reads from a term, it reads again from what `json` writes; and if `exact` holds of
it, then a text can say what is written when it can say the term, or more than `levels`. -/
def Faithful (value? : Term → Option α) (json : α → Json) (levels : Nat) (exact : α → Prop) :
    Prop :=
  ∀ ⦃t a⦄, value? t = some a → value? (json a).term = some a ∧
    ∀ depth, t.Within (depth + levels) → exact a → (json a).Fits (depth + levels)

namespace Faithful

variable {levels : Nat} {exact : α → Prop} {t : Term} {names : List String} {f : Fields}
  {name : String}

/-- A reader that reads everything that is written. -/
theorem of_forall
    (h : ∀ a, value? (json a).term = some a ∧ ∀ depth, (json a).Fits (depth + levels)) :
    Faithful value? json levels fun _ => True :=
  fun _ a _ => ⟨(h a).1, fun depth _ _ => (h a).2 depth⟩

theorem list (h : Faithful value? json levels exact) :
    Faithful (list? value?) (fun as => .arr (as.map json)) (levels + 1)
      fun as => ∀ a ∈ as, exact a := by
  intro t as has
  cases t with
  | arr items =>
    refine ⟨list?_map fun a ha => ?_, fun depth ht hexact => Json.fits_arr.2 ?_⟩
    · obtain ⟨t, -, hta⟩ := mem_of_mapM has ha
      exact (h hta).1
    · rw [List.forall_mem_map]
      intro a ha
      obtain ⟨t, htm, hta⟩ := mem_of_mapM has ha
      exact (h hta).2 depth (within_arr.1 ht t htm) (hexact a ha)
  | _ => cases has

/-- A field with a default, which has to be read again as well. -/
theorem defaulted (h : Faithful value? json levels exact) {default a : α}
    (hdefault : value? (json default).term = some default ∧
      ∀ depth, (json default).Fits (depth + levels))
    (hf : t.fields? names = some f) (ha : f.defaulted name default value? = some a) :
    value? (json a).term = some a ∧
      ∀ depth, t.Within (depth + levels + 1) → exact a → (json a).Fits (depth + levels) := by
  rw [Fields.defaulted] at ha
  split at ha
  case h_1 =>
    cases ha
    exact ⟨hdefault.1, fun depth _ _ => hdefault.2 depth⟩
  case h_2 s hs => exact ⟨(h ha).1, fun depth ht => (h ha).2 depth (ht.slot hf hs)⟩

/-- An optional field, when no part is written as null that has not been read from null. -/
theorem optional (h : Faithful value? json levels exact)
    (hnull : ∀ t a, t ≠ null → value? t = some a → (json a).term ≠ null)
    {o : Option α} (hf : t.fields? names = some f) (ho : f.optional name value? = some o) :
    ((o.map json).getD .null).term.nullable? value? = some o ∧
      ∀ depth, t.Within (depth + levels + 1) → (∀ a ∈ o, exact a) →
        ((o.map json).getD .null).Fits (depth + levels) := by
  cases o with
  | none => exact ⟨rfl, fun _ _ _ => Json.fits_null⟩
  | some a =>
    obtain ⟨s, hs, hne, hsa⟩ : ∃ s, f.slot name = some s ∧ s ≠ null ∧ value? s = some a := by
      rw [Fields.optional] at ho
      split at ho
      case h_1 => split at ho <;> cases ho
      case h_2 s hs =>
        by_cases hne : s = null
        · rw [hne] at ho; cases ho
        · rw [nullable?_of_ne_null hne] at ho
          exact ⟨s, hs, hne, by simpa using ho⟩
    refine ⟨?_, fun depth ht hexact => (h hsa).2 depth (ht.slot hf hs) (hexact a rfl)⟩
    rw [Option.map_some, Option.getD_some, nullable?_of_ne_null (hnull s a hne hsa), (h hsa).1,
      Option.map_some]

/-- A reader that cannot read null writes none. -/
theorem ne_null (h : Faithful value? json levels exact) (hnull : value? .null = none) (t : Term)
    (a : α) (_ : t ≠ null) (ha : value? t = some a) : (json a).term ≠ null := by
  intro he
  have := (h ha).1
  rw [he, hnull] at this
  cases this

end Faithful

/-- Free values are read again as they are. -/
theorem value?_faithful : Faithful Term.value? id 0 Json.FloatFree :=
  fun _ _ h => ⟨Json.value?_term (canonical_of_value? h),
    fun _ ht hfree => ⟨within_of_value? ht h, hfree⟩⟩

theorem term_ne_null (t : Term) (j : Json) (ht : t ≠ null) (h : t.value? = some j) :
    (id j).term ≠ null := by
  cases j with
  | null => exact absurd (eq_null_of_value? h) ht
  | _ => simp [Json.term]

end Term

end CloudInventory
