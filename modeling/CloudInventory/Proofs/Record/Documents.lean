import CloudInventory.Proofs.Ean.Reading
import CloudInventory.Proofs.Json.Rebuilding
import CloudInventory.Proofs.Record.Slots
import Mathlib.Data.List.Nodup

/-!
Documents of records. A document has the attributes that are set under their own keys, then the
metadata, each key under `asset.metadata.`, and then the extra fields, which would overwrite what
has the same key. The fields that there is a phrase for have keys of their own, which are no key of
an attribute and do not begin like a key of the metadata. A record whose fields are among these is
plain: nothing in its document is overwritten, and the document tells the whole record but for its
destination and the exact time.
-/

namespace CloudInventory

/-! ### Keys -/

namespace Record

/-- The keys of the attributes. -/
def coreKeys : List String :=
  ["@timestamp", "cloud.provider", "cloud.region", "cloud.account.id", "asset.kind", "asset.id",
    "asset.type", "asset.name", "asset.ean", "asset.parents", "asset.children"]

/-- The keys of the fields that there are phrases for. -/
def fieldKeys : List String :=
  ["cloud.instance.id", "kubernetes.node.name", "kubernetes.node.start_time",
    "kubernetes.pod.name", "kubernetes.pod.uid", "kubernetes.pod.start_time",
    "kubernetes.namespace", "kubernetes.container.name", "kubernetes.container.uid",
    "kubernetes.container.start_time", "kubernetes.container.state"]

theorem nodup_keys : (coreKeys ++ fieldKeys).Nodup := by decide +kernel

theorem toList_metadataKey (key : String) :
    (metadataKey key).toList = "asset.metadata.".toList ++ key.toList :=
  String.toList_append

theorem metadataKey_injective {key key' : String} (h : metadataKey key = metadataKey key') :
    key = key' := by
  have hlists := congrArg String.toList h
  rw [toList_metadataKey, toList_metadataKey] at hlists
  exact String.toList_inj.1 (List.append_cancel_left hlists)

/-- No key of an attribute or a field begins like a key of the metadata. -/
theorem metadataKey_not_mem (key : String) :
    metadataKey key ∉ coreKeys ∧ metadataKey key ∉ fieldKeys := by
  have hnone : ∀ k ∈ coreKeys ++ fieldKeys, ¬ "asset.metadata.".toList <+: k.toList := by
    decide +kernel
  have hprefix : "asset.metadata.".toList <+: (metadataKey key).toList := by
    rw [toList_metadataKey]
    exact List.prefix_append _ _
  exact ⟨fun h => hnone _ (List.mem_append_left _ h) hprefix,
    fun h => hnone _ (List.mem_append_right _ h) hprefix⟩

/-! ### Plain records -/

/-- A record has a type, which tells where it goes, and its fields are some that there is a phrase
for. -/
structure Plain (space : Option String) (r : Record) : Prop where
  typed : r.type.isSome
  destination : r.destination = r.type.map fun t => destinationFor t space
  fields : ∀ key ∉ fieldKeys, r.fields.get? key = none

/-- What the document tells under the key of an attribute, if it is set. -/
def core (r : Record) : List (String × Option Json) :=
  [("@timestamp", some (.str r.timestamp.stamp)),
    ("cloud.provider", r.provider.map fun p => .str p.text),
    ("cloud.region", r.region.map .str),
    ("cloud.account.id", r.account.map .str),
    ("asset.kind", r.kind.map fun k => .str k.text),
    ("asset.id", r.id.map .str),
    ("asset.type", r.type.map fun t => .str t.text),
    ("asset.name", r.name.map .str),
    ("asset.ean", r.ean.map fun e => .str e.text),
    ("asset.parents", if r.parents = [] then none else some (.strs (r.parents.map Ean.text))),
    ("asset.children", if r.children = [] then none else some (.strs (r.children.map Ean.text)))]

theorem keys_core (r : Record) : r.core.map Prod.fst = coreKeys := rfl

/-- The entries of the attributes that are set. -/
def coreEntries (r : Record) : List (String × Json) :=
  r.core.flatMap fun c => (c.2.map (c.1, ·)).toList

/-- The entries of the metadata. -/
def metadataEntries (r : Record) : List (String × Json) :=
  r.metadata.toList.map fun e => (metadataKey e.1, e.2)

theorem textEntry_eq (key : String) (value : Option String) :
    textEntry key value = ((value.map Json.str).map (key, ·)).toList := by
  cases value <;> rfl

theorem eanEntry_eq (key : String) (eans : List Ean) : eanEntry key eans =
    ((if eans = [] then none else some (.strs (eans.map Ean.text)) : Option Json).map
      (key, ·)).toList := by
  unfold eanEntry
  split <;> rfl

theorem entries_eq (r : Record) :
    r.entries = r.coreEntries ++ r.metadataEntries ++ r.fields.toList := by
  rw [entries, coreEntries, metadataEntries, core]
  simp only [textEntry_eq, eanEntry_eq, List.flatMap_cons, List.flatMap_nil, Option.map_map,
    Function.comp_def, Option.map_some, Option.toList_some, List.append_assoc, List.append_nil]

theorem mem_entries {r : Record} {e : String × Json} : e ∈ r.entries ↔
    e ∈ r.coreEntries ∨ e ∈ r.metadataEntries ∨ e ∈ r.fields.toList := by
  rw [entries_eq, List.mem_append, List.mem_append, or_assoc]

theorem mem_coreEntries {r : Record} {k : String} {v : Json} :
    (k, v) ∈ r.coreEntries ↔ (k, some v) ∈ r.core := by
  simp only [coreEntries, List.mem_flatMap, Option.mem_toList, Option.map_eq_some_iff]
  constructor
  · rintro ⟨⟨k', o⟩, hc, v', hv, he⟩
    obtain ⟨rfl, rfl⟩ := Prod.mk.inj he
    rwa [← hv]
  · exact fun h => ⟨_, h, v, rfl, rfl⟩

theorem mem_metadataEntries {r : Record} {k : String} {v : Json} :
    (metadataKey k, v) ∈ r.metadataEntries ↔ r.metadata.get? k = some v := by
  rw [metadataEntries, List.mem_map, Dict.get?_eq_some_iff]
  constructor
  · rintro ⟨⟨k', v'⟩, he, heq⟩
    obtain ⟨hkey, rfl⟩ := Prod.mk.inj heq
    rwa [← metadataKey_injective hkey]
  · exact fun h => ⟨_, h, rfl⟩

/-! ### Whose entry a key has -/

theorem key_of_mem_coreEntries {r : Record} {e : String × Json} (h : e ∈ r.coreEntries) :
    e.1 ∈ coreKeys :=
  r.keys_core ▸ List.mem_map_of_mem (mem_coreEntries.1 h)

theorem key_of_mem_metadataEntries {r : Record} {e : String × Json} (h : e ∈ r.metadataEntries) :
    e.1 ∉ coreKeys ∧ e.1 ∉ fieldKeys := by
  obtain ⟨e', -, rfl⟩ := List.mem_map.1 h
  exact metadataKey_not_mem e'.1

theorem nodup_coreEntries (r : Record) : (r.coreEntries.map Prod.fst).Nodup := by
  have hsublist : ∀ l : List (String × Option Json),
      ((l.flatMap fun c => (c.2.map (c.1, ·)).toList).map Prod.fst).Sublist (l.map Prod.fst) := by
    intro l
    induction l with
    | nil => exact .slnil
    | cons c l ih =>
      obtain ⟨k, _ | v⟩ := c
      · exact ih.cons k
      · exact ih.cons_cons k
  exact (hsublist r.core).nodup (r.keys_core ▸ nodup_keys.of_append_left)

theorem nodup_metadataEntries (r : Record) : (r.metadataEntries.map Prod.fst).Nodup := by
  have hkeys : r.metadataEntries.map Prod.fst = r.metadata.keys.map metadataKey := by
    rw [metadataEntries, List.map_map, Dict.keys, List.map_map]
    rfl
  rw [hkeys]
  exact (Dict.nodup_keys _).map fun _ _ => metadataKey_injective

section Plain

variable {space : Option String} {r r' : Record} (h : r.Plain space)
include h

theorem Plain.key_of_mem_fields {e : String × Json} (he : e ∈ r.fields.toList) :
    e.1 ∈ fieldKeys := by
  by_contra hkey
  have hnone := h.fields e.1 hkey
  rw [Dict.get?_eq_some_iff.2 he] at hnone
  cases hnone

/-- No two entries have one key. -/
theorem Plain.nodup_entries : (r.entries.map Prod.fst).Nodup := by
  have hapart : List.Disjoint coreKeys fieldKeys := List.disjoint_of_nodup_append nodup_keys
  rw [entries_eq, List.map_append, List.map_append]
  refine (r.nodup_coreEntries.append r.nodup_metadataEntries ?_).append (Dict.nodup_keys _) ?_
  · rintro k hk hk'
    obtain ⟨e, he, rfl⟩ := List.mem_map.1 hk
    obtain ⟨e', he', heq⟩ := List.mem_map.1 hk'
    exact (key_of_mem_metadataEntries he').1 (heq ▸ key_of_mem_coreEntries he)
  · rintro k hk hk'
    obtain ⟨e', he', rfl⟩ := List.mem_map.1 hk'
    have hfield := h.key_of_mem_fields he'
    rcases List.mem_append.1 hk with hk | hk
    all_goals obtain ⟨e, he, heq⟩ := List.mem_map.1 hk
    · exact hapart (heq ▸ key_of_mem_coreEntries he) hfield
    · exact (key_of_mem_metadataEntries he).2 (heq ▸ hfield)

/-- The document has the entries of the record, each once. -/
theorem Plain.document_perm : r.document.toList.Perm r.entries :=
  Dict.toList_ofList_perm h.nodup_entries

theorem Plain.get?_document {k : String} {v : Json} :
    r.document.get? k = some v ↔ (k, v) ∈ r.entries :=
  Dict.get?_eq_some_iff.trans h.document_perm.mem_iff

/-! ### What the document tells -/

/-- Under the key of an attribute the document has what the attribute is written as. -/
theorem Plain.get?_coreKey {c : String × Option Json} (hc : c ∈ r.core) :
    r.document.get? c.1 = c.2 := by
  have hapart : List.Disjoint coreKeys fieldKeys := List.disjoint_of_nodup_append nodup_keys
  have hnodup : (r.core.map Prod.fst).Nodup := r.keys_core ▸ nodup_keys.of_append_left
  have hkey : c.1 ∈ coreKeys := r.keys_core ▸ List.mem_map_of_mem hc
  refine Option.ext fun v => ?_
  rw [h.get?_document, mem_entries, mem_coreEntries]
  constructor
  · rintro (hmem | hmem | hmem)
    · exact (congrArg Prod.snd (List.inj_on_of_nodup_map hnodup hmem hc rfl)).symm
    · exact absurd hkey (key_of_mem_metadataEntries hmem).1
    · exact absurd (h.key_of_mem_fields hmem) (hapart hkey)
  · intro hv
    exact .inl (hv ▸ hc)

theorem Plain.get?_metadataKey (key : String) :
    r.document.get? (metadataKey key) = r.metadata.get? key := by
  have hkey := metadataKey_not_mem key
  refine Option.ext fun v => ?_
  rw [h.get?_document, mem_entries, mem_metadataEntries]
  constructor
  · rintro (hmem | hmem | hmem)
    · exact absurd (key_of_mem_coreEntries hmem) hkey.1
    · exact hmem
    · exact absurd (h.key_of_mem_fields hmem) hkey.2
  · exact fun hmem => .inr (.inl hmem)

theorem Plain.get?_fieldKey {key : String} (hkey : key ∈ fieldKeys) :
    r.document.get? key = r.fields.get? key := by
  have hapart : List.Disjoint coreKeys fieldKeys := List.disjoint_of_nodup_append nodup_keys
  refine Option.ext fun v => ?_
  rw [h.get?_document, mem_entries, ← Dict.get?_eq_some_iff]
  constructor
  · rintro (hmem | hmem | hmem)
    · exact absurd hkey (hapart (key_of_mem_coreEntries hmem))
    · exact absurd hkey (key_of_mem_metadataEntries hmem).2
    · exact hmem
  · exact fun hmem => .inr (.inr hmem)

end Plain

/-- How many entries a record has: one for the time, for each attribute that is set, for edges of a
kind if there are any, and for each key of the metadata and of the fields. -/
def extent (r : Record) : Nat :=
  1 + [r.provider.isSome, r.region.isSome, r.account.isSome, r.kind.isSome, r.id.isSome,
    r.type.isSome, r.name.isSome, r.ean.isSome, r.parents ≠ [], r.children ≠ []].count true +
    r.metadata.size + r.fields.size

theorem length_entries (r : Record) : r.entries.length = r.extent := by
  have htext (key : String) (value : Option String) :
      (textEntry key value).length = value.isSome.toNat := by cases value <;> rfl
  have hean (key : String) (eans : List Ean) :
      (eanEntry key eans).length = (decide (eans ≠ [])).toNat := by cases eans <;> rfl
  have hcount (b : Bool) (bs : List Bool) : (b :: bs).count true = b.toNat + bs.count true := by
    cases b <;> simp [Nat.add_comm]
  rw [extent, entries]
  simp only [List.length_append, htext, hean, hcount, List.count_nil, Option.isSome_map,
    List.length_map, List.length_singleton, Dict.size, Dict.toList]
  omega

theorem strs_injective {ss ss' : List String} (h : Json.strs ss = Json.strs ss') : ss = ss' :=
  List.map_injective_iff.2 (fun _ _ => Json.str.inj) (Json.arr.inj h)

/-- Edges that are written alike are the same; those of no kind are not written. -/
theorem eans_of_written {eans eans' : List Ean}
    (h : (if eans = [] then none else some (Json.strs (eans.map Ean.text))) =
      if eans' = [] then none else some (Json.strs (eans'.map Ean.text))) : eans = eans' := by
  split at h
  case isTrue hnil =>
    split at h
    · rw [hnil]; symm; assumption
    · cases h
  case isFalse =>
    split at h
    · cases h
    · exact List.map_injective_iff.2 (fun _ _ => Ean.text_injective)
        (strs_injective (Option.some.inj h))

theorem of_written {α : Type} {text : α → String} (htext : Function.Injective text)
    {o o' : Option α} (h : (o.map fun a => Json.str (text a)) = o'.map fun a => .str (text a)) :
    o = o' :=
  Option.map_injective (fun _ _ ha => htext (Json.str.inj ha)) h

/-- Texts that are read back are different for different things. -/
theorem injective_of_read {α : Type} {text : α → String} {read : String → Option α}
    (h : ∀ a, read (text a) = some a) : Function.Injective text :=
  fun a a' htext => Option.some.inj ((h a).symm.trans ((congrArg read htext).trans (h a')))

theorem eq_map_of_keys {α : Type} {l : List (String × α)} {keys : List String} {f : String → α}
    (hkeys : l.map Prod.fst = keys) (h : ∀ c ∈ l, f c.1 = c.2) :
    l = keys.map fun k => (k, f k) := by
  rw [← hkeys, List.map_map]
  exact (List.map_id l).symm.trans (List.map_congr_left fun c hc => Prod.ext rfl (h c hc).symm)

/-- Of plain records with one namespace, the document tells everything but the exact time. -/
theorem Plain.eq_of_document_eq {space : Option String} {r r' : Record} (h : r.Plain space)
    (h' : r'.Plain space) (hdocument : r.document = r'.document) :
    { r with timestamp := r'.timestamp } = r' := by
  have hcore : r.core = r'.core := by
    rw [eq_map_of_keys r.keys_core fun _ => h.get?_coreKey,
      eq_map_of_keys r'.keys_core fun _ => h'.get?_coreKey, hdocument]
  simp only [core, List.cons.injEq, Prod.mk.injEq, true_and, and_true] at hcore
  obtain ⟨-, hprovider, hregion, haccount, hkind, hid, htype, hname, hean, hparents, hchildren⟩ :=
    hcore
  have hprovider := of_written (injective_of_read Provider.ofText?_text) hprovider
  have hregion := of_written Function.injective_id hregion
  have haccount := of_written Function.injective_id haccount
  have hkind := of_written (injective_of_read AssetKind.ofText?_text) hkind
  have hid := of_written Function.injective_id hid
  have htype := of_written (injective_of_read AssetType.ofText?_text) htype
  have hname := of_written Function.injective_id hname
  have hean := of_written (fun _ _ => Ean.text_injective) hean
  have hparents := eans_of_written hparents
  have hchildren := eans_of_written hchildren
  have hmetadata : r.metadata = r'.metadata := Dict.ext_get? fun key => by
    rw [← h.get?_metadataKey, hdocument, h'.get?_metadataKey]
  have hfields : r.fields = r'.fields := Dict.ext_get? fun key => by
    by_cases hkey : key ∈ fieldKeys
    · rw [← h.get?_fieldKey hkey, hdocument, h'.get?_fieldKey hkey]
    · rw [h.fields key hkey, h'.fields key hkey]
  have hdestination : r.destination = r'.destination := by
    rw [h.destination, h'.destination, htype]
  cases r
  cases r'
  simp_all only

end Record

/-! ### Records that collectors compose -/

namespace Patch

/-- The patch sets an attribute other than type and destination, or a field that there is a phrase
for, to a value that is no object. -/
def isPlain : Patch → Bool
  | kindAndId _ _ | type _ | destination _ | field _ (.obj _) => false
  | field key _ => Record.fieldKeys.contains key
  | _ => true

/-- The slots that plain patches leave alone. -/
theorem sets_of_isPlain {p : Patch} (h : p.isPlain = true) :
    p.sets .type = none ∧ p.sets .destination = none ∧
      ∀ key ∉ Record.fieldKeys, p.sets (.field key) = none := by
  cases p with
  | kindAndId | type | destination => cases h
  | field path value =>
    refine ⟨rfl, rfl, fun key hkey => ?_⟩
    have hpath : path ∈ Record.fieldKeys ∧ Json.leaves path value = [(path, value)] := by
      cases value with
      | obj => cases h
      | _ => exact ⟨List.contains_iff_mem.1 h, rfl⟩
    have hne : path ≠ key := fun he => hkey (he ▸ hpath.1)
    rw [sets, hpath.2, Dict.lastOf_cons, if_neg hne]
    rfl
  | _ => exact ⟨rfl, rfl, fun _ _ => rfl⟩

theorem isPlain_maybeName (name : Option String) : ∀ p ∈ maybeName name, p.isPlain = true := by
  rcases maybeName_cases name with h | ⟨s, h⟩ <;> simp [h, isPlain]

theorem isPlain_time {key : String} (hkey : key ∈ Record.fieldKeys) (time : Option Instant) :
    (field key (timeValue time)).isPlain = true := by
  cases time <;> exact List.contains_iff_mem.2 hkey

theorem isPlain_nodeData (name : String) (start : Option Instant) :
    ∀ p ∈ nodeData name start, p.isPlain = true := by
  simp only [nodeData, List.forall_mem_cons]
  exact ⟨rfl, isPlain_time (by decide) start, nofun⟩

theorem isPlain_podData (name uid space : String) (start : Option Instant) :
    ∀ p ∈ podData name uid space start, p.isPlain = true := by
  simp only [podData, List.forall_mem_cons]
  exact ⟨rfl, rfl, isPlain_time (by decide) start, rfl, nofun⟩

theorem isPlain_containerData (name uid space state : String) (start : Option Instant) :
    ∀ p ∈ containerData name uid space state start, p.isPlain = true := by
  simp only [containerData, List.forall_mem_cons]
  exact ⟨rfl, rfl, isPlain_time (by decide) start, rfl, rfl, nofun⟩

end Patch

/-- What a collector composes is plain. -/
theorem Record.plain_compose {stamp : Instant} {type : AssetType} {id : String}
    {space : Option String} {ps : List Patch} (h : ∀ p ∈ ps, p.isPlain = true) :
    (compose stamp (Patch.typed type id space ++ ps)).Plain space := by
  let first := (Patch.typed type id space).foldl Patch.apply (blank stamp)
  have hpart (s : Slot) (hs : ∀ p ∈ ps, p.sets s = none) :
      (compose stamp (Patch.typed type id space ++ ps)).part s = first.part s := by
    rw [compose, List.foldl_append, Patch.part_foldl, Patch.lastIn?_eq_none hs]
    rfl
  have htype : first.type = some type := rfl
  have hdestination : first.destination = some (destinationFor type space) := rfl
  have hfields (key : String) : first.fields.get? key = none := rfl
  generalize compose stamp (Patch.typed type id space ++ ps) = r at hpart ⊢
  generalize first = r₀ at *
  have htype' : r.type = r₀.type := hpart .type fun p hp => (Patch.sets_of_isPlain (h p hp)).1
  have hdestination' : r.destination = r₀.destination :=
    hpart .destination fun p hp => (Patch.sets_of_isPlain (h p hp)).2.1
  refine ⟨by rw [htype', htype]; rfl, by rw [hdestination', htype', hdestination, htype]; rfl,
    fun key hkey => ?_⟩
  rw [← hfields key]
  exact hpart (.field key) fun p hp => (Patch.sets_of_isPlain (h p hp)).2.2 key hkey

end CloudInventory
