import CloudInventory.Config.Reading
import CloudInventory.Proofs.Json.Coding
import CloudInventory.Proofs.Json.Texts

/-!
Configurations are read back from what is written for them. The common settings of a section are
written among its own, an absent setting as null and an empty list as such, so that no default takes
the place of anything. Only numbers of 64 bits are ever read, and so these are the ones that are
read back.
-/

namespace CloudInventory

/-! ### Parts -/

namespace Term

@[simp] theorem word?_nat {n : Nat} (h : n < Nat.pow 2 64) : word? (Json.nat n).term = some n :=
  if_pos h

/-- A word is a number of 64 bits. -/
theorem of_word? {t : Term} {n : Nat} (h : t.word? = some n) :
    t = .num (.int n) ∧ n < Nat.pow 2 64 := by
  unfold word? natBelow? at h
  split at h
  case h_1 =>
    split at h
    case isTrue hlt =>
      cases h
      exact ⟨rfl, hlt⟩
    case isFalse => cases h
  case h_2 => cases h

@[simp] theorem texts?_strs (ss : List String) : texts? (Json.strs ss).term = some ss :=
  list?_map fun s _ => text?_str s

end Term

namespace Fields

variable {α : Type} {f : Fields} {name : String} {value? : Term → Option α} {a : α}

/-- What a field with a default gives is the default or has been read from the field. -/
theorem eq_or_slot_of_defaulted {default : α} (h : f.defaulted name default value? = some a) :
    a = default ∨ ∃ s, f.slot name = some s ∧ value? s = some a := by
  rw [defaulted] at h
  split at h
  case h_1 => exact .inl (Option.some.inj h).symm
  case h_2 s hs => exact .inr ⟨s, hs, h⟩

/-- What a field gives that may be null has been read from the field. -/
theorem slot_of_defaulted_nullable?
    (h : f.defaulted name none (Term.nullable? value?) = some (some a)) :
    ∃ s, f.slot name = some s ∧ value? s = some a := by
  obtain hnone | ⟨s, hs, hread⟩ := eq_or_slot_of_defaulted h
  · cases hnone
  · refine ⟨s, hs, ?_⟩
    cases s with
    | null => cases hread
    | _ =>
      obtain ⟨a', ha', he⟩ := Option.map_eq_some_iff.1 hread
      exact Option.some.inj he ▸ ha'

end Fields

namespace Json

variable {depth : Nat}

@[simp] theorem fits_nat {n : Nat} (h : n < Nat.pow 2 64) : (nat n).Fits depth := by
  have hsmall : (Number.int n).Small := ⟨by omega, by exact_mod_cast h⟩
  simpa [Fits, nat, term, Term.Within, FloatFree] using hsmall

@[simp] theorem fits_strs (ss : List String) : (strs ss).Fits (depth + 1) := by simp [strs]

end Json

/-! ### Periods that are read -/

/-- A term says the period of a section: it is the default, or a word that is a part of the term. -/
def Term.SaysPeriod (t : Term) (b : BaseConfig) : Prop :=
  b.period = BaseConfig.standard.period ∨ ∃ s : Term, s.PartOf t ∧ s.word? = some b.period

namespace BaseConfig

theorem saysPeriod_of_ofFields? {t : Term} {names : List String} {f : Fields} {b : BaseConfig}
    (hf : t.section? names = some f) (h : ofFields? f = some b) : t.SaysPeriod b := by
  obtain ⟨period, hperiod, h⟩ := Option.bind_eq_some_iff.1 h
  obtain ⟨types, -, h⟩ := Option.bind_eq_some_iff.1 h
  obtain ⟨space, -, h⟩ := Option.bind_eq_some_iff.1 h
  cases h
  refine (Fields.eq_or_slot_of_defaulted hperiod).imp_right ?_
  rintro ⟨s, hs, hword⟩
  exact ⟨s, Term.partOf_of_members? hf hs, hword⟩

/-- The period is a number of 64 bits. -/
def InRange (b : BaseConfig) : Prop := b.period < Nat.pow 2 64

end BaseConfig

theorem Term.SaysPeriod.inRange {t : Term} {b : BaseConfig} (h : t.SaysPeriod b) : b.InRange := by
  rcases h with hstandard | ⟨s, -, hword⟩
  · rw [BaseConfig.InRange, hstandard]
    decide
  · exact (of_word? hword).2

section Sections

variable {t : Term}

theorem AwsConfig.saysPeriod_of_decode? {c : AwsConfig} (h : decode? t = some c) :
    t.SaysPeriod c.base := by
  simp only [decode?, Option.bind_eq_bind, Option.bind_eq_some_iff] at h
  obtain ⟨f, hf, b, hb, _, -, _, -, _, -, _, -, h⟩ := h
  cases h
  exact BaseConfig.saysPeriod_of_ofFields? hf hb

theorem GcpConfig.saysPeriod_of_decode? {c : GcpConfig} (h : decode? t = some c) :
    t.SaysPeriod c.base := by
  simp only [decode?, Option.bind_eq_bind, Option.bind_eq_some_iff] at h
  obtain ⟨f, hf, b, hb, _, -, _, -, _, -, h⟩ := h
  cases h
  exact BaseConfig.saysPeriod_of_ofFields? hf hb

theorem AzureConfig.saysPeriod_of_decode? {c : AzureConfig} (h : decode? t = some c) :
    t.SaysPeriod c.base := by
  simp only [decode?, Option.bind_eq_bind, Option.bind_eq_some_iff] at h
  obtain ⟨f, hf, b, hb, _, -, _, -, _, -, _, -, _, -, _, -, h⟩ := h
  cases h
  exact BaseConfig.saysPeriod_of_ofFields? hf hb

theorem KubeConfig.saysPeriod_of_decode? {c : KubeConfig} (h : decode? t = some c) :
    t.SaysPeriod c.base := by
  simp only [decode?, Option.bind_eq_bind, Option.bind_eq_some_iff] at h
  obtain ⟨f, hf, b, hb, _, -, _, -, h⟩ := h
  cases h
  exact BaseConfig.saysPeriod_of_ofFields? hf hb

end Sections

namespace NatsConfig

theorem timeout_of_decode? {surplus : Bool} {t : Term} {c : NatsConfig}
    (h : decode? surplus t = some c) : c.connectTimeout < Nat.pow 2 64 := by
  simp only [decode?, Option.bind_eq_bind, Option.bind_eq_some_iff] at h
  obtain ⟨f, -, _, -, _, -, _, -, timeout, htimeout, h⟩ := h
  cases h
  rcases Fields.eq_or_slot_of_defaulted htimeout with rfl | ⟨s, -, hword⟩
  · show 10 < Nat.pow 2 64
    decide
  · exact (Term.of_word? hword).2

end NatsConfig

namespace Config

variable {surplus : Bool} {t : Term} {c : Config}

theorem mem_sections {s : Provider × BaseConfig} : s ∈ c.sections ↔
    (∃ a, c.aws = some a ∧ (.aws, a.base) = s) ∨ (∃ a, c.gcp = some a ∧ (.gcp, a.base) = s) ∨
      (∃ a, c.azure = some a ∧ (.azure, a.base) = s) ∨
        ∃ a, c.kube = some a ∧ (.kube, a.base) = s := by
  simp only [sections, List.mem_append, Option.mem_toList, Option.map_eq_some_iff,
    or_assoc]

/-- The period of each section of a configuration that is read is said by a part of the term. -/
theorem saysPeriod_of_decodeWith? (h : decodeWith? surplus t = some c) {s : Provider × BaseConfig}
    (hs : s ∈ c.sections) : ∃ part : Term, part.PartOf t ∧ part.SaysPeriod s.2 := by
  simp only [decodeWith?, Option.bind_eq_bind, Option.bind_eq_some_iff] at h
  obtain ⟨f, hf, nats, -, aws, haws, gcp, hgcp, azure, hazure, kube, hkube, h⟩ := h
  cases h
  have hpart {α : Type} {name : String} {decode? : Term → Option α} {a : α} {b : BaseConfig}
      (hread : f.defaulted name none (Term.nullable? decode?) = some (some a))
      (hperiod : ∀ {part}, decode? part = some a → part.SaysPeriod b) :
      ∃ part : Term, part.PartOf t ∧ part.SaysPeriod b := by
    obtain ⟨part, hslot, hpart⟩ := Fields.slot_of_defaulted_nullable? hread
    exact ⟨part, Term.partOf_of_slot hf hslot, hperiod hpart⟩
  rcases mem_sections.1 hs with ⟨a, ha, rfl⟩ | ⟨a, ha, rfl⟩ | ⟨a, ha, rfl⟩ | ⟨a, ha, rfl⟩
  all_goals cases ha
  · exact hpart haws AwsConfig.saysPeriod_of_decode?
  · exact hpart hgcp GcpConfig.saysPeriod_of_decode?
  · exact hpart hazure AzureConfig.saysPeriod_of_decode?
  · exact hpart hkube KubeConfig.saysPeriod_of_decode?

/-- All numbers have 64 bits. -/
structure InRange (c : Config) : Prop where
  timeout : c.nats.connectTimeout < Nat.pow 2 64
  period : ∀ s ∈ c.sections, s.2.InRange

/-- What is read has numbers of 64 bits only. -/
theorem inRange_of_decodeWith? (h : decodeWith? surplus t = some c) : c.InRange where
  timeout := by
    simp only [decodeWith?, Option.bind_eq_bind, Option.bind_eq_some_iff] at h
    obtain ⟨f, -, nats, hnats, _, -, _, -, _, -, _, -, h⟩ := h
    cases h
    rcases Fields.eq_or_slot_of_defaulted hnats with rfl | ⟨s, -, hread⟩
    · show 10 < Nat.pow 2 64
      decide
    · exact NatsConfig.timeout_of_decode? hread
  period s hs := by
    obtain ⟨part, -, hperiod⟩ := saysPeriod_of_decodeWith? h hs
    exact hperiod.inRange

end Config

/-! ### Sections that are written -/

section Written

theorem AwsConfig.written (c : AwsConfig) (h : c.base.InRange) :
    decode? c.json.term = some c ∧ ∀ depth, c.json.Fits (depth + 2) := by
  unfold BaseConfig.InRange at h
  simp [decode?, json, Term.section?, BaseConfig.ofFields?, BaseConfig.members, Fields.setting, h]

theorem GcpConfig.written (c : GcpConfig) (h : c.base.InRange) :
    decode? c.json.term = some c ∧ ∀ depth, c.json.Fits (depth + 2) := by
  unfold BaseConfig.InRange at h
  simp [decode?, json, Term.section?, BaseConfig.ofFields?, BaseConfig.members, Fields.setting, h]

theorem AzureConfig.written (c : AzureConfig) (h : c.base.InRange) :
    decode? c.json.term = some c ∧ ∀ depth, c.json.Fits (depth + 2) := by
  unfold BaseConfig.InRange at h
  simp [decode?, json, Term.section?, BaseConfig.ofFields?, BaseConfig.members, Fields.setting, h]

theorem KubeConfig.written (c : KubeConfig) (h : c.base.InRange) :
    decode? c.json.term = some c ∧ ∀ depth, c.json.Fits (depth + 2) := by
  unfold BaseConfig.InRange at h
  simp [decode?, json, Term.section?, BaseConfig.ofFields?, BaseConfig.members, Fields.setting, h]

theorem NatsConfig.written (c : NatsConfig) (h : c.connectTimeout < Nat.pow 2 64) :
    (∀ surplus, decode? surplus c.json.term = some c) ∧ ∀ depth, c.json.Fits (depth + 2) := by
  simp [decode?, json, fieldNames, h]

@[simp] theorem AwsConfig.decode?_null : decode? .null = none := rfl

@[simp] theorem GcpConfig.decode?_null : decode? .null = none := rfl

@[simp] theorem AzureConfig.decode?_null : decode? .null = none := rfl

@[simp] theorem KubeConfig.decode?_null : decode? .null = none := rfl

end Written

namespace Config

/-- A section that is absent is written as null. -/
theorem sectionJson_eq {α : Type} (json : α → Json) (o : Option α) :
    sectionJson json o = (o.map json).getD .null := by
  cases o <;> rfl

/-- What holds of a section that is read holds of a section that may be absent. -/
theorem sectionJson_written {α : Type} {decode? : Term → Option α} {json : α → Json} {o : Option α}
    (hnull : decode? .null = none)
    (h : ∀ a ∈ o, decode? (json a).term = some a ∧ ∀ depth, (json a).Fits (depth + 2)) :
    (sectionJson json o).term.nullable? decode? = some o ∧
      ∀ depth, (sectionJson json o).Fits (depth + 2) := by
  rw [sectionJson_eq]
  exact ⟨Term.nullable?_getD hnull fun a ha => (h a ha).1,
    fun depth => Json.fits_getD fun a ha => (h a ha).2 depth⟩

/-- A configuration whose numbers have 64 bits is read from what is written for it, and a text can
say that. -/
theorem written {c : Config} (h : c.InRange) :
    decode? c.json.term = some c ∧ ∀ depth, c.json.Fits (depth + 3) := by
  have hnats := c.nats.written h.timeout
  have haws := sectionJson_written (o := c.aws) AwsConfig.decode?_null fun a ha =>
    a.written (h.period _ (mem_sections.2 (.inl ⟨a, ha, rfl⟩)))
  have hgcp := sectionJson_written (o := c.gcp) GcpConfig.decode?_null fun a ha =>
    a.written (h.period _ (mem_sections.2 (.inr (.inl ⟨a, ha, rfl⟩))))
  have hazure := sectionJson_written (o := c.azure) AzureConfig.decode?_null fun a ha =>
    a.written (h.period _ (mem_sections.2 (.inr (.inr (.inl ⟨a, ha, rfl⟩)))))
  have hkube := sectionJson_written (o := c.kube) KubeConfig.decode?_null fun a ha =>
    a.written (h.period _ (mem_sections.2 (.inr (.inr (.inr ⟨a, ha, rfl⟩)))))
  simp [decode?, decodeWith?, json, hnats, haws, hgcp, hazure, hkube]

/-- The configuration that the text of what is written says. -/
def reread? (c : Config) : Option Config := (Term.read? c.json.render).bind decode?

theorem reread?_eq {c : Config} (h : c.InRange) : c.reread? = some c := by
  rw [reread?, Term.read?_render ((written h).2 _), Option.bind_some, (written h).1]

/-- What is asked of a configuration has the same answers for another one: whether it passes its
check and with which fault, which providers have a section, and in which sections each type is
collected, and under which namespace. -/
structure AnswersLike (c c' : Config) : Prop where
  check : c'.check = c.check
  providers : c'.providers = c.providers
  enables : ∀ t : AssetType, c'.sections.map (fun s => (s.1, s.2.enables t)) =
    c.sections.map fun s => (s.1, s.2.enables t)
  space : c'.sections.map (fun s => (s.1, s.2.space)) = c.sections.map fun s => (s.1, s.2.space)

theorem AnswersLike.refl (c : Config) : c.AnswersLike c := ⟨rfl, rfl, fun _ => rfl, rfl⟩

/-- CORRECT: the configurations that are read back from what is written for them, as a value and as
a text, are those whose numbers have 64 bits, and these are all that can ever be read; so what is
asked of one has the same answers before and after. -/
theorem reread_iff (c : Config) :
    (decode? c.json.term = some c ↔ c.InRange) ∧
      (c.reread? = some c ↔ c.InRange) ∧
      ∀ c', c.InRange → decode? c.json.term = some c' ∨ c.reread? = some c' →
        c' = c ∧ c.AnswersLike c' := by
  refine ⟨⟨inRange_of_decodeWith?, fun h => (written h).1⟩, ⟨fun h => ?_, reread?_eq⟩,
    fun c' h hread => ?_⟩
  · obtain ⟨t, -, hread⟩ := Option.bind_eq_some_iff.1 h
    exact inRange_of_decodeWith? hread
  · rw [(written h).1, reread?_eq h, or_self] at hread
    cases hread
    exact ⟨rfl, .refl c⟩

/-- A configuration with all sections: the longest period, lists that are empty where the default is
not, and settings that are absent. -/
def everySection : Config where
  nats := ⟨false, [], "", Nat.pow 2 64 - 1⟩
  aws := some ⟨⟨Nat.pow 2 64 - 1, [], some ""⟩, [], none, some "a\"b", none⟩
  gcp := some ⟨⟨1, ["gcp-instance", "none"], none⟩, ["p"], [], some "/null"⟩
  azure := some ⟨⟨0, [], some "null"⟩, ["westeurope"], none, none, none, none, some "group"⟩
  kube := some ⟨.standard, none, true⟩

theorem everySection_reread : everySection.InRange ∧ everySection.reread? = some everySection ∧
    everySection.AnswersLike everySection := by
  have hrange : everySection.InRange :=
    ⟨by decide, by simp [sections, everySection, BaseConfig.InRange, BaseConfig.standard]⟩
  have hread := (reread_iff everySection).2.1.2 hrange
  exact ⟨hrange, hread, ((reread_iff everySection).2.2 _ hrange (.inr hread)).2⟩

end Config

end CloudInventory
