import CloudInventory.Gcp.NodePool
import CloudInventory.Proofs.Json.Rebuilding

/-!
Labels among metadata. The texts under the key of the labels consist of entries with commas between
them, and an entry sets a label if it has an equals sign. What is read from metadata is the value of
the last entry that sets a label, wherever among the texts it stands. So labels are read back from
all metadata that they are written into: in any order, spread over any number of texts, among other
metadata and between entries that set nothing.
-/

namespace CloudInventory.Gcp

/-! ### What is read -/

/-- The entries of the texts of labels among metadata, in their order. An entry has no comma, and a
text is its entries with commas between them. -/
inductive HasEntries : List MetadataItem → List String → Prop where
  | nil : HasEntries [] []
  | other {item : MetadataItem} {items : List MetadataItem} {entries : List String} :
    item.key ≠ labelsKey → HasEntries items entries → HasEntries (item :: items) entries
  | labels {item : MetadataItem} {items : List MetadataItem} {first entries : List String} :
    item.key = labelsKey → first ≠ [] → (∀ e ∈ first, ',' ∉ e.toList) →
    Text.joined "," first = item.value → HasEntries items entries →
    HasEntries (item :: items) (first ++ entries)

/-- The last of the entries that set a label sets it to a value: what stands in front of the first
equals sign is the name. -/
def LastSets (entries : List String) (name value : String) : Prop :=
  '=' ∉ name.toList ∧ ∃ front rest, entries = front ++ (name ++ "=" ++ value) :: rest ∧
    ∀ v, name ++ "=" ++ v ∉ rest

/-- The pieces between the commas of the texts of labels. -/
def entriesOf (items : List MetadataItem) : List String :=
  (items.filter fun i => i.key = labelsKey).flatMap fun i => Text.fields ',' i.value

theorem entriesOf_cons (item : MetadataItem) (items : List MetadataItem) :
    entriesOf (item :: items) =
      (if item.key = labelsKey then Text.fields ',' item.value else []) ++ entriesOf items := by
  rw [entriesOf, List.filter_cons]
  by_cases h : item.key = labelsKey <;> simp [h, entriesOf]

theorem hasEntries_iff {items : List MetadataItem} {entries : List String} :
    HasEntries items entries ↔ entries = entriesOf items := by
  have hpieces {value : String} {first : List String} : first = Text.fields ',' value ↔
      first ≠ [] ∧ (∀ e ∈ first, ',' ∉ e.toList) ∧ Text.joined "," first = value :=
    Text.eq_fields_iff
  constructor
  · intro h
    induction h with
    | nil => rfl
    | other hkey _ ih => rw [entriesOf_cons, if_neg hkey, List.nil_append, ih]
    | labels hkey hne hcomma hjoined _ ih =>
      rw [entriesOf_cons, if_pos hkey, ih, ← hpieces.2 ⟨hne, hcomma, hjoined⟩]
  · rintro rfl
    induction items with
    | nil => exact .nil
    | cons item items ih =>
      rw [entriesOf_cons]
      split
      case isTrue hkey =>
        obtain ⟨hne, hcomma, hjoined⟩ := hpieces.1 (rfl : Text.fields ',' item.value = _)
        exact .labels hkey hne hcomma hjoined ih
      case isFalse hkey => exact .other hkey ih

theorem kubeLabels_eq (items : List MetadataItem) :
    kubeLabels items = .ofList ((entriesOf items).filterMap (Text.cut '=')) := by
  rw [kubeLabels, entriesOf, List.filterMap_flatMap]
  rfl

theorem cut_eq_some_iff {entry name value : String} : Text.cut '=' entry = some (name, value) ↔
    entry = name ++ "=" ++ value ∧ '=' ∉ name.toList :=
  Text.cut_eq_some_iff

/-- Of the pairs that entries say, the last one under a name is the last entry that sets it. -/
theorem lastOf_cut_iff {entries : List String} {name value : String} :
    Dict.lastOf name (entries.filterMap (Text.cut '=')) = some value ↔
      LastSets entries name value := by
  rw [Dict.lastOf_eq_some_iff]
  constructor
  · rintro ⟨front, rest, hpairs, hrest⟩
    obtain ⟨before, behind, rfl, rfl, hbehind⟩ := List.filterMap_eq_append_iff.1 hpairs
    obtain ⟨skipped, entry, after, rfl, -, hentry, rfl⟩ := List.filterMap_eq_cons_iff.1 hbehind
    obtain ⟨rfl, hname⟩ := cut_eq_some_iff.1 hentry
    refine ⟨hname, before ++ skipped, after, by simp, fun v hv => ?_⟩
    exact hrest (name, v) (List.mem_filterMap.2 ⟨_, hv, cut_eq_some_iff.2 ⟨rfl, hname⟩⟩) rfl
  · rintro ⟨hname, front, rest, rfl, hrest⟩
    have hcut : Text.cut '=' (name ++ "=" ++ value) = some (name, value) :=
      cut_eq_some_iff.2 ⟨rfl, hname⟩
    refine ⟨front.filterMap (Text.cut '='), rest.filterMap (Text.cut '='), ?_, ?_⟩
    · rw [List.filterMap_append, List.filterMap_cons_some hcut]
    · rintro ⟨name', v⟩ hpair rfl
      obtain ⟨entry, hentry, hcut⟩ := List.mem_filterMap.1 hpair
      obtain ⟨rfl, -⟩ := cut_eq_some_iff.1 hcut
      exact hrest v hentry

theorem get?_kubeLabels_iff {items : List MetadataItem} {name value : String} :
    (kubeLabels items).get? name = some value ↔ LastSets (entriesOf items) name value := by
  rw [kubeLabels_eq, Dict.get?_ofList, lastOf_cut_iff]

theorem isMember_iff {pools : List String} {items : List MetadataItem} :
    isMember pools items ↔ ∃ pool ∈ pools, LastSets (entriesOf items) poolLabel pool := by
  simp only [isMember, ← get?_kubeLabels_iff]
  cases (kubeLabels items).get? poolLabel <;> simp

/-! ### What is written -/

/-- What a text of labels is put together from. -/
inductive Piece where
  | label (name value : String)
  /-- Something that sets no label. -/
  | noise (text : String)
  deriving DecidableEq

namespace Piece

/-- The text of a piece. -/
def text : Piece → String
  | label name value => name ++ "=" ++ value
  | noise text => text

/-- The label that a piece sets. -/
def label? : Piece → Option (String × String)
  | label name value => some (name, value)
  | noise _ => none

/-- The piece can be told from its surroundings: no comma in a label and no equals sign in its name,
and none in what sets no label. -/
def Plain : Piece → Prop
  | label name value => ',' ∉ name.toList ∧ '=' ∉ name.toList ∧ ',' ∉ value.toList
  | noise text => '=' ∉ text.toList

theorem labelEntries_text {p : Piece} (h : p.Plain) : labelEntries p.text = p.label?.toList := by
  cases p with
  | label name value =>
    obtain ⟨hname, hequals, hvalue⟩ := h
    have hcomma : ',' ∉ (name ++ "=" ++ value).toList := by simp [hname, hvalue]
    have hcut : Text.cut '=' (name ++ "=" ++ value) = some (name, value) :=
      cut_eq_some_iff.2 ⟨rfl, hequals⟩
    rw [labelEntries, text, Text.fields_of_not_mem hcomma, List.filterMap_cons_some hcut]
    rfl
  | noise text =>
    refine List.filterMap_eq_nil_iff.2 fun entry hentry => Text.cut_eq_none_iff.2 fun hequals => ?_
    exact h (Text.mem_of_mem_field hentry hequals).1

/-- The labels of a text are those of its pieces. -/
theorem labelEntries_joined {ps : List Piece} (h : ∀ p ∈ ps, p.Plain) :
    labelEntries (Text.joined "," (ps.map text)) = ps.filterMap label? := by
  cases ps with
  | nil => decide +kernel
  | cons p ps =>
    have hfields : Text.fields ',' (Text.joined "," ((p :: ps).map text)) =
        ((p :: ps).map text).flatMap (Text.fields ',') :=
      Text.fields_joined ',' (List.cons_ne_nil _ _)
    rw [labelEntries, hfields, List.flatMap_map, List.filterMap_flatMap,
      List.filterMap_eq_flatMap_toList]
    exact List.flatMap_congr fun q hq => labelEntries_text (h q hq)

end Piece

/-- What metadata are put together from: texts of labels, and other items. -/
inductive Part where
  | labels (pieces : List Piece)
  | other (item : MetadataItem)

namespace Part

/-- The item of a part. -/
def item : Part → MetadataItem
  | labels ps => ⟨labelsKey, Text.joined "," (ps.map Piece.text)⟩
  | other item => item

/-- The pieces of a part. -/
def pieces : Part → List Piece
  | labels ps => ps
  | other _ => []

end Part

/-- A map can be written as labels. -/
def Writable (d : Dict String) : Prop :=
  ∀ name value, d.get? name = some value →
    ',' ∉ name.toList ∧ '=' ∉ name.toList ∧ ',' ∉ value.toList

/-- The parts have the labels of a map, each once and in any order; there may be pieces without an
equals sign between them, and items under other keys. -/
structure Writes (d : Dict String) (parts : List Part) : Prop where
  labels : ((parts.flatMap Part.pieces).filterMap Piece.label?).Perm d.toList
  noise : ∀ text, Piece.noise text ∈ parts.flatMap Part.pieces → '=' ∉ text.toList
  other : ∀ item, Part.other item ∈ parts → item.key ≠ labelsKey

theorem Writes.plain {d : Dict String} {parts : List Part} (h : Writes d parts)
    (hd : Writable d) : ∀ p ∈ parts.flatMap Part.pieces, p.Plain := by
  intro p hp
  cases p with
  | label name value =>
    have hmem : (name, value) ∈ d.toList :=
      h.labels.mem_iff.1 (List.mem_filterMap.2 ⟨_, hp, rfl⟩)
    exact hd name value (Dict.get?_eq_some_iff.2 hmem)
  | noise text => exact h.noise text hp

/-- The labels among metadata are those of the pieces, in their order. -/
theorem cut_entriesOf_items {parts : List Part}
    (hplain : ∀ p ∈ parts.flatMap Part.pieces, p.Plain)
    (hother : ∀ item, Part.other item ∈ parts → item.key ≠ labelsKey) :
    (entriesOf (parts.map Part.item)).filterMap (Text.cut '=') =
      (parts.flatMap Part.pieces).filterMap Piece.label? := by
  induction parts with
  | nil => rfl
  | cons part parts ih =>
    rw [List.flatMap_cons, List.forall_mem_append] at hplain
    have hrest := ih hplain.2 fun item hitem => hother item (List.mem_cons_of_mem _ hitem)
    rw [List.map_cons, entriesOf_cons, List.flatMap_cons, List.filterMap_append,
      List.filterMap_append, hrest]
    congr 1
    cases part with
    | labels ps => exact Piece.labelEntries_joined hplain.1
    | other item => simp [Part.item, Part.pieces, hother item List.mem_cons_self]

/-- A map is read back from what it is written into. -/
theorem kubeLabels_items {d : Dict String} {parts : List Part} (hd : Writable d)
    (h : Writes d parts) : kubeLabels (parts.map Part.item) = d := by
  rw [kubeLabels_eq, cut_entriesOf_items (h.plain hd) h.other]
  have hkeys : (((parts.flatMap Part.pieces).filterMap Piece.label?).map Prod.fst).Nodup :=
    (h.labels.map Prod.fst).nodup_iff.2 d.nodup_keys
  refine Dict.ext_get? fun name => Option.ext fun value => ?_
  rw [Dict.get?_eq_some_iff, Dict.get?_eq_some_iff]
  exact ((Dict.toList_ofList_perm hkeys).trans h.labels).mem_iff

/-- CORRECT: metadata have their entries in one way, and the labels that are read say for each name
what the last entry says that sets it; the machine is in a pool exactly when the last entry for the
node pool names it. And every map that can be written as labels is read back as it is, however it is
spread over texts, with whatever between and around it that sets no label. -/
theorem labels_exact :
    (∀ items, ∃ entries, (∀ entries', HasEntries items entries' ↔ entries' = entries) ∧
      (∀ name value, (kubeLabels items).get? name = some value ↔ LastSets entries name value) ∧
      ∀ pools, isMember pools items ↔ ∃ pool ∈ pools, LastSets entries poolLabel pool) ∧
    ∀ d parts, Writable d → Writes d parts → kubeLabels (parts.map Part.item) = d := by
  refine ⟨fun items => ⟨entriesOf items, ?_, ?_, ?_⟩, fun d parts hd h => kubeLabels_items hd h⟩
  · exact fun _ => hasEntries_iff
  · exact fun _ _ => get?_kubeLabels_iff
  · exact fun _ => isMember_iff

/-! ### Labels in two texts -/

/-- Two labels. -/
def poolAndExpr : Dict String := .ofList [(poolLabel, "np1"), ("expr", "x=y=")]

/-- The labels in two texts, the second one first, among entries that set nothing and with another
item between the texts. -/
def scattered : List Part :=
  [.labels [.noise "broken", .label "expr" "x=y=", .noise ","],
    .other ⟨"startup-script", "cloud.google.com/gke-nodepool=np2"⟩,
    .labels [.label poolLabel "np1"]]

theorem toList_poolAndExpr : poolAndExpr.toList = [(poolLabel, "np1"), ("expr", "x=y=")] := by
  decide +kernel

theorem writable_poolAndExpr : Writable poolAndExpr := by
  intro name value h
  rw [Dict.get?_eq_some_iff, toList_poolAndExpr] at h
  rcases List.mem_pair.1 h with h | h <;> cases h <;> decide +kernel

theorem writes_scattered : Writes poolAndExpr scattered where
  labels := by
    rw [toList_poolAndExpr]
    exact List.Perm.swap _ _ _
  noise text h := by
    have hplain : ∀ p ∈ scattered.flatMap Part.pieces, ∀ t, p = .noise t → '=' ∉ t.toList := by
      simp only [scattered, Part.pieces, List.flatMap_cons, List.flatMap_nil]
      simp
    exact hplain _ h text rfl
  other item h := by
    simp only [scattered, List.mem_cons, Part.other.injEq, reduceCtorEq, List.not_mem_nil, or_false,
      false_or] at h
    exact h ▸ by decide

theorem kubeLabels_scattered : Writable poolAndExpr ∧ Writes poolAndExpr scattered ∧
    scattered.map Part.item = [⟨"kube-labels", "broken,expr=x=y=,,"⟩,
      ⟨"startup-script", "cloud.google.com/gke-nodepool=np2"⟩,
      ⟨"kube-labels", "cloud.google.com/gke-nodepool=np1"⟩] ∧
    kubeLabels (scattered.map Part.item) = poolAndExpr ∧
    isMember ["np0", "np1"] (scattered.map Part.item) := by
  obtain ⟨hread, hwritten⟩ := labels_exact
  obtain ⟨entries, -, hget, hmember⟩ := hread (scattered.map Part.item)
  have hlabels := hwritten _ _ writable_poolAndExpr writes_scattered
  have hpool : LastSets entries poolLabel "np1" := by
    rw [← hget, hlabels, Dict.get?_eq_some_iff, toList_poolAndExpr]
    exact List.mem_cons_self
  exact ⟨writable_poolAndExpr, writes_scattered, by decide +kernel, hlabels,
    (hmember _).2 ⟨"np1", by decide, hpool⟩⟩

end CloudInventory.Gcp
