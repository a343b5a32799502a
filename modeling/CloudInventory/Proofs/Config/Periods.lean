import CloudInventory.Collector
import CloudInventory.Proofs.Config.Coding
import CloudInventory.Proofs.Config.Loading
import CloudInventory.Proofs.Toml.Integers

/-!
How long entries of caches would live under a configuration that passes its check: two periods, as
long as 64 bits can count the seconds. The check turns away only a period of zero, so what bounds a
period is how it has been read. A TOML text says integers with a sign, the double of which can
always be counted; a JSON text says integers without one as well, up to double that. The main
statement says that these larger ones make the difference, and nothing else does.
-/

namespace CloudInventory

/-! ### One section -/

namespace BaseConfig

variable {b : BaseConfig}

/-- Two periods can be counted when a period has 63 bits. -/
theorem cacheTtl_eq (b : BaseConfig) :
    b.cacheTtl = if b.period < Nat.pow 2 63 then some (2 * b.period) else none := by
  have hhalf : 2 * b.period < Nat.pow 2 64 ↔ b.period < Nat.pow 2 63 := by
    show 2 * b.period < 2 * Nat.pow 2 63 ↔ _
    omega
  rw [cacheTtl, if_congr hhalf rfl rfl]

theorem cacheTtl_eq_some_iff : b.cacheTtl = some (2 * b.period) ↔ b.period < Nat.pow 2 63 := by
  rw [cacheTtl_eq]
  split <;> simp_all

theorem cacheTtl_eq_none_iff : b.cacheTtl = none ↔ Nat.pow 2 63 ≤ b.period := by
  rw [cacheTtl_eq, ← Nat.not_lt]
  split <;> simp_all

theorem period_pos_of_check {p : Provider} (h : b.check p = .ok ()) : 0 < b.period := by
  unfold check at h
  split at h
  case isTrue => cases h
  case isFalse hne => exact Nat.pos_of_ne_zero hne

end BaseConfig

/-- A collector for Google Cloud is built when its caches' entries have a lifetime. -/
theorem GcpCollector.ofConfig?_eq_some_iff {config : GcpConfig} {capacity : Nat}
    {g : GcpCollector} : ofConfig? config capacity = some g ↔
      config.base.period < Nat.pow 2 63 ∧
        g = ⟨config, 2 * config.base.period * 1000, .withCapacity capacity⟩ := by
  rw [ofConfig?, BaseConfig.cacheTtl_eq]
  split
  case isTrue h => simp [h, eq_comm]
  case isFalse h => simp [h]

/-! ### Periods that a text says -/

theorem Term.SaysPeriod.lt_of_signed {t : Term} {b : BaseConfig} (h : t.SaysPeriod b)
    (ht : t.Signed) : b.period < Nat.pow 2 63 := by
  rcases h with hstandard | ⟨s, hs, hword⟩
  · rw [hstandard]
    decide
  · have hsigned := ht.part hs
    rw [(Term.of_word? hword).1, Term.signed_num] at hsigned
    exact Int.ofNat_lt.1 hsigned.2

namespace Config

variable {c : Config} {s : Provider × BaseConfig}

/-- The periods of a TOML text have a sign, and so 63 bits. -/
theorem period_lt_of_decoded? {text : String} (h : decoded? text = some c) (hs : s ∈ c.sections) :
    s.2.period < Nat.pow 2 63 := by
  obtain ⟨t, ht, hdecode⟩ := Option.bind_eq_some_iff.1 h
  obtain ⟨part, hpart, hperiod⟩ := saysPeriod_of_decodeWith? hdecode hs
  exact hperiod.lt_of_signed ((Toml.signed_of_read? ht).part hpart)

/-- The longest period that a TOML text can say, and a longer one. -/
example :
    (["7", "8"].map fun digit =>
      (decoded? ("[azure]\nperiod = 922337203685477580" ++ digit)).map fun c =>
        c.sections.map fun s => s.2.cacheTtl) =
      [some [some (Nat.pow 2 64 - 2)], none] := by
  decide +kernel

theorem bind_eq_ok_iff {r r' : Except ConfigFault Unit} :
    (r >>= fun _ => r') = .ok () ↔ r = .ok () ∧ r' = .ok () := by
  cases r with
  | error fault => exact iff_of_false nofun fun h => nomatch h.1
  | ok => exact (and_iff_right rfl).symm

/-- A check goes through the settings of every section. -/
theorem check_of_mem_sections (h : c.check = .ok ()) (hs : s ∈ c.sections) :
    s.2.check s.1 = .ok () := by
  have hsections := (check_eq_ok_iff.1 h).1
  simp only [checkSections, bind_eq_ok_iff] at hsections
  obtain ⟨haws, hgcp, hazure, hkube⟩ := hsections
  rcases mem_sections.1 hs with ⟨a, ha, rfl⟩ | ⟨a, ha, rfl⟩ | ⟨a, ha, rfl⟩ | ⟨a, ha, rfl⟩
  · rwa [ha] at haws
  · rw [ha] at hgcp
    exact (bind_eq_ok_iff.1 hgcp).1
  · rwa [ha] at hazure
  · rwa [ha] at hkube

theorem sections_overridden (c : Config) (urls : Option String) :
    (c.overridden urls).sections = c.sections := by
  cases urls with
  | none => rfl
  | some urls =>
    rw [overridden, withServers]
    dsimp only
    split <;> rfl

/-! ### Accepted configurations -/

/-- A configuration has been read from a TOML text, with or without an override of its servers, and
passes its check. -/
def FromToml (c : Config) : Prop :=
  ∃ text, ofToml text = .ok c ∨ ∃ urls, load (some text) urls = .ok c

/-- A configuration has been read and passes its check. -/
inductive Accepted (c : Config) : Prop where
  | toml : c.FromToml → Accepted c
  | json {t : Term} : decode? t = some c → c.check = .ok () → Accepted c

theorem FromToml.exists_load (h : c.FromToml) : ∃ text urls, load (some text) urls = .ok c := by
  obtain ⟨text, h | ⟨urls, h⟩⟩ := h
  · exact ⟨text, none, by rw [load, h]; rfl⟩
  · exact ⟨text, urls, h⟩

theorem FromToml.period_lt (h : c.FromToml) (hs : s ∈ c.sections) :
    s.2.period < Nat.pow 2 63 := by
  obtain ⟨text, urls, hload⟩ := h.exists_load
  obtain ⟨d, hd, rfl⟩ := Option.map_eq_some_iff.1 (effective_of_load hload).1
  exact period_lt_of_decoded? hd (d.sections_overridden urls ▸ hs)

namespace Accepted

theorem check (h : c.Accepted) : c.check = .ok () := by
  cases h with
  | toml h =>
    obtain ⟨text, urls, hload⟩ := h.exists_load
    exact (effective_of_load hload).2
  | json _ hcheck => exact hcheck

theorem period_pos (h : c.Accepted) (hs : s ∈ c.sections) : 0 < s.2.period :=
  BaseConfig.period_pos_of_check (check_of_mem_sections h.check hs)

theorem period_lt (h : c.Accepted) (hs : s ∈ c.sections) : s.2.period < Nat.pow 2 64 := by
  cases h with
  | toml h => exact (h.period_lt hs).trans (by decide)
  | json hread _ => exact (inRange_of_decodeWith? hread).period s hs

end Accepted

/-- In every section entries of caches would live for exactly two periods. -/
def Doubles (c : Config) : Prop := ∀ s ∈ c.sections, s.2.cacheTtl = some (2 * s.2.period)

/-- CORRECT: the periods of an accepted configuration are positive and have 64 bits. Twice a period
can be counted in all sections exactly when all periods have 63 bits, which those from a TOML text
do. In a section with a longer one there is no lifetime, and a collector for Google Cloud is not
built; with any other one it is, and its entries live for exactly two periods, in milliseconds. -/
theorem doubles_iff {c : Config} (h : c.Accepted) :
    (∀ s ∈ c.sections, 0 < s.2.period ∧ s.2.period < Nat.pow 2 64) ∧
      (c.Doubles ↔ ∀ s ∈ c.sections, s.2.period < Nat.pow 2 63) ∧
      (c.FromToml → c.Doubles) ∧
      (∀ s ∈ c.sections, s.2.cacheTtl = none ↔ Nat.pow 2 63 ≤ s.2.period) ∧
      ∀ config ∈ c.gcp, ∀ capacity g, GcpCollector.ofConfig? config capacity = some g ↔
        config.base.period < Nat.pow 2 63 ∧
          g = ⟨config, 2 * config.base.period * 1000, .withCapacity capacity⟩ := by
  have hdoubles : c.Doubles ↔ ∀ s ∈ c.sections, s.2.period < Nat.pow 2 63 :=
    forall₂_congr fun _ _ => BaseConfig.cacheTtl_eq_some_iff
  exact ⟨fun s hs => ⟨h.period_pos hs, h.period_lt hs⟩, hdoubles,
    fun htoml => hdoubles.2 fun _ hs => htoml.period_lt hs,
    fun _ _ => BaseConfig.cacheTtl_eq_none_iff,
    fun _ _ _ _ => GcpCollector.ofConfig?_eq_some_iff⟩

/-- A project is collected from with the shortest period that cannot be doubled. -/
def farPeriod : GcpConfig := ⟨⟨Nat.pow 2 63, [], none⟩, ["p"], [], none⟩

theorem not_doubles_farPeriod :
    let text := "\x7b\"gcp\":\x7b\"period\":9223372036854775808,\"projects\":[\"p\"]\x7d\x7d"
    ∃ c, (Term.read? text).bind decode? = some c ∧ c.check = .ok () ∧ c.gcp = some farPeriod ∧
      ¬ c.Doubles ∧ ∀ capacity, GcpCollector.ofConfig? farPeriod capacity = none := by
  intro text
  let c : Config := { Config.standard with gcp := some farPeriod }
  have hread : (Term.read? text).bind decode? = some c := by decide +kernel
  have hcheck : c.check = .ok () := by decide
  obtain ⟨t, -, hdecode⟩ := Option.bind_eq_some_iff.1 hread
  obtain ⟨-, hdoubles, -, -, hbuilt⟩ := doubles_iff (.json hdecode hcheck)
  refine ⟨c, hread, hcheck, rfl, fun h => ?_, fun capacity => ?_⟩
  · exact Nat.lt_irrefl _ (hdoubles.1 h (.gcp, farPeriod.base) (by decide))
  · exact Option.eq_none_iff_forall_ne_some.2 fun g hg =>
      Nat.lt_irrefl _ ((hbuilt farPeriod rfl capacity g).1 hg).1

end Config

end CloudInventory
