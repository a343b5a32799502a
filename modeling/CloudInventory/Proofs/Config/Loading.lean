import CloudInventory.Config.Reading
import CloudInventory.Proofs.Text.Fields

/-!
Which configuration is judged when one is loaded. The servers that the environment lists replace the
configured ones, so the configuration that collectors would run with is the one with the override.
The check looks at the one without it. The main statement says that this makes a difference in one
case only: where the sections are in order and a server is missing that the override would have
supplied.
-/

namespace CloudInventory.Config

/-! ### Overrides -/

/-- An override lists no server exactly when there is nothing in it but commas and blanks. -/
theorem overrideServers_eq_nil_iff {urls : String} :
    overrideServers urls = [] ↔ ∀ c ∈ urls.toList, c = ',' ∨ Text.isBlank c := by
  have hpieces : overrideServers urls = [] ↔
      ∀ piece ∈ Text.fieldsOf ',' urls.toList, ∀ c ∈ piece, Text.isBlank c := by
    simp [overrideServers, Text.fields, Text.trim_eq_empty_iff]
  have hflatten : (∀ piece ∈ Text.fieldsOf ',' urls.toList, ∀ c ∈ piece, Text.isBlank c) ↔
      ∀ c ∈ (Text.fieldsOf ',' urls.toList).flatten, Text.isBlank c := by
    simp only [List.mem_flatten]
    constructor
    · rintro h c ⟨piece, hpiece, hc⟩
      exact h piece hpiece c hc
    · exact fun h piece hpiece c hc => h c ⟨piece, hpiece, hc⟩
  rw [hpieces, hflatten, Text.flatten_fieldsOf]
  simp only [List.mem_filter, decide_eq_true_eq, and_imp]
  exact forall₂_congr fun c _ => (or_iff_not_imp_left).symm

/-- The environment lists a server: something in the override is neither a comma nor a blank. -/
def Supplies (urls : Option String) : Prop :=
  ∃ u, urls = some u ∧ ∃ c ∈ u.toList, c ≠ ',' ∧ Text.isBlank c = false

theorem supplies_some_iff {urls : String} : Supplies (some urls) ↔ overrideServers urls ≠ [] := by
  rw [Ne, overrideServers_eq_nil_iff]
  simp [Supplies]

/-- The configuration with the servers of an override, if there is one. -/
def overridden (c : Config) : Option String → Config
  | some urls => c.withServers urls
  | none => c

/-! ### Checks -/

/-- Check the sections of the providers. -/
def checkSections (c : Config) : Except ConfigFault Unit := do
  checkSection c.aws fun s => s.base.check .aws
  checkSection c.gcp fun s => do
    s.base.check .gcp
    if s.projects = [] then .error .noProjects else .ok ()
  checkSection c.azure fun s => s.base.check .azure
  checkSection c.kube fun s => s.base.check .kube

/-- Servers are wanted, and there are none. -/
def LacksServers (c : Config) : Prop := c.nats.enabled = true ∧ c.nats.servers = []

instance (c : Config) : Decidable c.LacksServers := inferInstanceAs (Decidable (_ ∧ _))

/-- The servers are looked at last. -/
theorem check_eq (c : Config) : c.check = c.checkSections >>= fun _ =>
    if c.LacksServers then .error .noServers else .ok () := by
  simp only [check, checkSections, bind_assoc]
  rfl

/-- A check fails for the lack of servers. -/
def Unserved (r : Except ConfigFault Unit) : Prop := r = .error .noServers

section Faults

theorem not_unserved_base (b : BaseConfig) (p : Provider) : ¬ Unserved (b.check p) := by
  unfold BaseConfig.check Unserved
  split
  · simp
  · dsimp only
    split
    · simp
    · split
      · split <;> simp
      · simp

theorem not_unserved_bind {r : Except ConfigFault Unit} {f : Unit → Except ConfigFault Unit}
    (hr : ¬ Unserved r) (hf : ¬ Unserved (f ())) : ¬ Unserved (r >>= f) := by
  cases r with
  | error fault => exact hr
  | ok => exact hf

theorem not_unserved_section {α : Type} (s : Option α) {check : α → Except ConfigFault Unit}
    (h : ∀ a, ¬ Unserved (check a)) : ¬ Unserved (checkSection s check) := by
  cases s with
  | none => simp [checkSection, Unserved]
  | some a => exact h a

theorem not_unserved_sections (c : Config) : ¬ Unserved c.checkSections := by
  refine not_unserved_bind (not_unserved_section _ fun s => not_unserved_base _ _) ?_
  refine not_unserved_bind (not_unserved_section _ fun s => ?_) ?_
  · refine not_unserved_bind (not_unserved_base _ _) ?_
    split <;> simp [Unserved]
  refine not_unserved_bind (not_unserved_section _ fun s => not_unserved_base _ _) ?_
  exact not_unserved_section _ fun s => not_unserved_base _ _

end Faults

theorem check_eq_ok_iff {c : Config} :
    c.check = .ok () ↔ c.checkSections = .ok () ∧ ¬ c.LacksServers := by
  rw [check_eq]
  cases c.checkSections with
  | error fault => exact iff_of_false nofun fun h => nomatch h.1
  | ok => simp [bind, Except.bind]

/-- There are no servers is only said of a configuration whose sections are in order. -/
theorem check_eq_noServers_iff {c : Config} :
    c.check = .error .noServers ↔ c.checkSections = .ok () ∧ c.LacksServers := by
  have hsections := not_unserved_sections c
  rw [check_eq]
  cases h : c.checkSections with
  | error fault =>
    rw [h] at hsections
    exact iff_of_false hsections fun h => nomatch h.1
  | ok => simp [bind, Except.bind]

/-- The override has no part in the sections, and it never takes the last server away. -/
theorem check_overridden_eq_ok_iff {c : Config} {urls : Option String} :
    (c.overridden urls).check = .ok () ↔
      c.check = .ok () ∨ c.check = .error .noServers ∧ Supplies urls := by
  have hkeeps : c.overridden urls = c ∧ ¬ Supplies urls ∨
      (c.overridden urls).checkSections = c.checkSections ∧ ¬ (c.overridden urls).LacksServers ∧
        Supplies urls := by
    cases urls with
    | none => exact .inl ⟨rfl, fun ⟨_, h, _⟩ => nomatch h⟩
    | some urls =>
      rw [supplies_some_iff, overridden, withServers]
      by_cases hservers : overrideServers urls = []
      · exact .inl ⟨if_pos hservers, not_not.2 hservers⟩
      · refine .inr ⟨?_, ?_, hservers⟩
        · simp [hservers, checkSections]
        · simp [hservers, LacksServers]
  rcases hkeeps with ⟨hsame, hnone⟩ | ⟨hsections, hserved, hsupplies⟩
  · simp [hsame, hnone]
  · rw [check_eq_ok_iff, check_eq_ok_iff, check_eq_noServers_iff, hsections]
    by_cases hlacks : c.LacksServers <;> simp [hlacks, hserved, hsupplies]

/-! ### Loading -/

/-- The configuration that a text says, unchecked. -/
def decoded? (text : String) : Option Config := (Toml.read? text).bind (decodeWith? true)

/-- The configuration that collectors would run with: the one that a text says, with the servers of
an override. -/
def effective? (text : String) (urls : Option String) : Option Config :=
  (decoded? text).map fun c => c.overridden urls

/-- Loading gives the effective configuration, and gives it exactly when that passes its check. -/
def JudgesEffective (text : String) (urls : Option String) : Prop :=
  ∀ c, load (some text) urls = .ok c ↔ effective? text urls = some c ∧ c.check = .ok ()

theorem load_eq (text : String) (urls : Option String) :
    load (some text) urls =
      match decoded? text with
      | some c => c.check.map fun _ => c.overridden urls
      | none => .error .malformed := by
  rw [load, ofToml, decoded?]
  cases (Toml.read? text).bind (decodeWith? true) with
  | none => rfl
  | some c =>
    simp only [checked]
    cases c.check <;> cases urls <;> rfl

/-- What is loaded is the effective configuration, and it passes its check. -/
theorem effective_of_load {text : String} {urls : Option String} {c : Config}
    (h : load (some text) urls = .ok c) : effective? text urls = some c ∧ c.check = .ok () := by
  rw [load_eq] at h
  cases hdecoded : decoded? text with
  | none =>
    rw [hdecoded] at h
    cases h
  | some d =>
    simp only [hdecoded] at h
    cases hcheck : d.check with
    | error fault =>
      rw [hcheck] at h
      cases h
    | ok =>
      rw [hcheck] at h
      obtain rfl : d.overridden urls = c := Except.ok.inj h
      exact ⟨by rw [effective?, hdecoded, Option.map_some],
        check_overridden_eq_ok_iff.2 (.inl hcheck)⟩

theorem judgesEffective_of_decoded {text : String} {d : Config} (h : decoded? text = some d)
    (urls : Option String) :
    JudgesEffective text urls ↔ ¬ (d.check = .error .noServers ∧ Supplies urls) := by
  have hload := load_eq text urls
  simp only [h] at hload
  have heffective : effective? text urls = some (d.overridden urls) := by
    rw [effective?, h, Option.map_some]
  cases hcheck : d.check with
  | ok =>
    refine iff_of_true (fun c => ⟨effective_of_load, ?_⟩) (by simp)
    rintro ⟨hc, -⟩
    obtain rfl := Option.some.inj (heffective.symm.trans hc)
    rw [hload, hcheck]
    rfl
  | error fault =>
    have hoverridden : (d.overridden urls).check = .ok () ↔
        d.check = .ok () ∨ d.check = .error .noServers ∧ Supplies urls :=
      check_overridden_eq_ok_iff
    rw [hcheck] at hload hoverridden
    constructor
    · rintro hjudges hboth
      have hloaded := (hjudges _).2 ⟨heffective, hoverridden.2 (.inr hboth)⟩
      rw [hload] at hloaded
      cases hloaded
    · rintro hnot c
      refine ⟨effective_of_load, ?_⟩
      rintro ⟨hc, hpasses⟩
      obtain rfl := Option.some.inj (heffective.symm.trans hc)
      exact absurd ((hoverridden.1 hpasses).resolve_left nofun) hnot

/-- CORRECT: loading judges the effective configuration unless the text's one lacks servers, and
nothing else, that the override would have supplied. Then it is turned away for the lack of servers
although the effective one passes. Whatever is loaded is the effective configuration, which passes
its check and so has servers if it wants any. -/
theorem judgesEffective_iff (text : String) (urls : Option String) :
    (JudgesEffective text urls ↔
      ∀ c, decoded? text = some c → c.check = .error .noServers → ¬ Supplies urls) ∧
    (¬ JudgesEffective text urls → load (some text) urls = .error .noServers ∧
      ∃ c, effective? text urls = some c ∧ c.check = .ok ()) ∧
    ∀ c, load (some text) urls = .ok c → effective? text urls = some c ∧ c.check = .ok () ∧
      (c.nats.enabled = true → c.nats.servers ≠ []) := by
  have hloaded : ∀ c, load (some text) urls = .ok c → effective? text urls = some c ∧
      c.check = .ok () ∧ (c.nats.enabled = true → c.nats.servers ≠ []) := by
    intro c hload
    obtain ⟨heffective, hcheck⟩ := effective_of_load hload
    exact ⟨heffective, hcheck, not_and.1 (check_eq_ok_iff.1 hcheck).2⟩
  cases hdecoded : decoded? text with
  | none =>
    have hjudges : JudgesEffective text urls := by
      intro c
      refine ⟨effective_of_load, ?_⟩
      rintro ⟨hc, -⟩
      rw [effective?, hdecoded] at hc
      cases hc
    have hnone : ∀ c, (none : Option Config) = some c → c.check = .error .noServers →
        ¬ Supplies urls := fun c hc => nomatch hc
    exact ⟨iff_of_true hjudges hnone, fun h => absurd hjudges h, hloaded⟩
  | some d =>
    have hjudges := judgesEffective_of_decoded hdecoded urls
    refine ⟨?_, fun h => ?_, hloaded⟩
    · rw [hjudges, not_and]
      constructor
      · rintro h c hc
        exact Option.some.inj hc ▸ h
      · exact fun h => h d rfl
    · obtain ⟨hcheck, hsupplies⟩ := not_not.1 (mt hjudges.2 h)
      refine ⟨?_, d.overridden urls, ?_, ?_⟩
      · rw [load_eq, hdecoded]
        simp only [hcheck]
        rfl
      · rw [effective?, hdecoded, Option.map_some]
      · exact check_overridden_eq_ok_iff.2 (.inr ⟨hcheck, hsupplies⟩)

/-- The text wants servers and has none, and the environment lists one. -/
theorem not_judgesEffective_emptyServers :
    let text := "[nats]\nservers = []\n"
    let urls := some "nats://a:4222"
    ¬ JudgesEffective text urls ∧ load (some text) urls = .error .noServers ∧
      ∃ c, effective? text urls = some c ∧ c.check = .ok () := by
  intro text urls
  have hread : decoded? text =
      some { Config.standard with nats := { NatsConfig.standard with servers := [] } } := by
    decide +kernel
  have hsupplies : Supplies urls := ⟨_, rfl, 'n', by decide, by decide, by decide⟩
  obtain ⟨hiff, hturned, -⟩ := judgesEffective_iff text urls
  have hnot : ¬ JudgesEffective text urls := fun h => hiff.1 h _ hread rfl hsupplies
  exact ⟨hnot, hturned hnot⟩

end CloudInventory.Config
