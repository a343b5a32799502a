import CloudInventory.Kube.Item
import CloudInventory.Proofs.Instant.Texts
import CloudInventory.Proofs.Json.Coding

/-!
Nodes and pods that have been read are read back from what is written for them. Unlike the items of
the other providers they have parts that not every value of their type could have been read from:
times, which are on the calendar once they have been read, and what a container waits for, which
is kept as it is.
-/

namespace CloudInventory.Kube

open Term

@[simp] theorem NodeSpec.written (i : NodeSpec) :
    decode? i.json.term = some i ∧ ∀ depth, i.json.Fits (depth + 1) := by
  simp [decode?, json]

@[simp] theorem NodeCondition.written (i : NodeCondition) :
    decode? i.json.term = some i ∧ ∀ depth, i.json.Fits (depth + 1) := by
  simp [decode?, json]

@[simp] theorem NodeStatus.written (i : NodeStatus) :
    decode? i.json.term = some i ∧ ∀ depth, i.json.Fits (depth + 3) := by
  simp [decode?, json]

@[simp] theorem PodSpec.written (i : PodSpec) :
    decode? i.json.term = some i ∧ ∀ depth, i.json.Fits (depth + 1) := by
  simp [decode?, json]

/-! ### Times -/

theorem time?_faithful : Faithful time? (fun i => .str i.zulu) 0 fun _ => True := by
  intro t i h
  obtain ⟨text, -, hread⟩ := Option.bind_eq_some_iff.1 h
  refine ⟨?_, fun depth _ _ => Json.fits_str _⟩
  rw [time?, text?_str, Option.bind_some]
  exact Instant.read?_zulu (Instant.onCalendar_of_read? hread)

/-- A time that may be missing. -/
theorem optional_time {t : Term} {names : List String} {f : Fields} {name : String}
    {o : Option Instant} (hf : t.fields? names = some f) (ho : f.optional name time? = some o) :
    (timeJson o).term.nullable? time? = some o ∧ ∀ depth, (timeJson o).Fits depth := by
  have hjson : timeJson o = (o.map fun i => Json.str i.zulu).getD .null := by cases o <;> rfl
  refine ⟨?_, fun depth => Json.fits_ofOption _⟩
  rw [hjson]
  exact (time?_faithful.optional (time?_faithful.ne_null rfl) hf ho).1

/-! ### Objects -/

@[simp] theorem ObjectMeta.blank_written : decode? blank.json.term = some blank ∧
    ∀ depth, blank.json.Fits (depth + 2) := by
  simp [decode?, json, blank, timeJson, Json.ofOption]

theorem ObjectMeta.faithful : Faithful decode? json 2 fun _ => True := by
  intro t m h
  simp only [decode?, Option.bind_eq_bind, Option.bind_eq_some_iff, Option.pure_def,
    Option.some.injEq] at h
  obtain ⟨f, hf, name, -, space, -, uid, -, created, hcreated, annotations, -, rfl⟩ := h
  obtain ⟨hagain, hfits⟩ := optional_time hf hcreated
  exact ⟨by simp [decode?, json, hagain], fun depth _ _ => by simp [json, hfits]⟩

theorem Node.faithful : Faithful decode? json 4 fun _ => True := by
  intro t n h
  simp only [decode?, Option.bind_eq_bind, Option.bind_eq_some_iff, Option.pure_def,
    Option.some.injEq] at h
  obtain ⟨f, hf, metadata, hmetadata, spec, -, status, -, rfl⟩ := h
  obtain ⟨hagain, hfits⟩ := ObjectMeta.faithful.defaulted ObjectMeta.blank_written hf hmetadata
  exact ⟨by simp [decode?, json, hagain], fun depth ht _ => by simp [json, hfits (depth + 1) ht]⟩

/-! ### Containers -/

/-- What a container waits for has no numbers other than integers. -/
def ContainerState.FloatFree (s : ContainerState) : Prop := ∀ j ∈ s.waiting, j.FloatFree

@[simp] theorem StartedState.decode?_null : decode? .null = none := by simp [decode?]

theorem StartedState.faithful : Faithful decode? json 1 fun _ => True := by
  intro t s h
  simp only [decode?, Option.bind_eq_bind, Option.bind_eq_some_iff, Option.pure_def,
    Option.some.injEq] at h
  obtain ⟨f, hf, started, hstarted, rfl⟩ := h
  obtain ⟨hagain, hfits⟩ := optional_time hf hstarted
  exact ⟨by simp [decode?, json, hagain], fun depth _ _ => by simp [json, hfits]⟩

theorem ContainerState.faithful : Faithful decode? json 2 ContainerState.FloatFree := by
  intro t s h
  simp only [decode?, Option.bind_eq_bind, Option.bind_eq_some_iff, Option.pure_def,
    Option.some.injEq] at h
  obtain ⟨f, hf, waiting, hwaiting, running, hrunning, terminated, hterminated, rfl⟩ := h
  have hnull := StartedState.faithful.ne_null StartedState.decode?_null
  obtain ⟨hagain, hfits⟩ := value?_faithful.optional term_ne_null hf hwaiting
  obtain ⟨hagain1, hfits1⟩ := StartedState.faithful.optional hnull hf hrunning
  obtain ⟨hagain2, hfits2⟩ := StartedState.faithful.optional hnull hf hterminated
  rw [Option.map_id_fun, id] at hagain hfits
  refine ⟨by simp [decode?, json, hagain, hagain1, hagain2], fun depth ht hfree => ?_⟩
  simp [json, hfits (depth + 1) ht hfree, hfits1 depth ht, hfits2 depth ht]

@[simp] theorem ContainerState.blank_written : decode? blank.json.term = some blank ∧
    ∀ depth, blank.json.Fits (depth + 2) := by
  simp [decode?, json, blank]

theorem ContainerStatus.faithful : Faithful decode? json 3 fun c => c.state.FloatFree := by
  intro t c h
  simp only [decode?, Option.bind_eq_bind, Option.bind_eq_some_iff, Option.pure_def,
    Option.some.injEq] at h
  obtain ⟨f, hf, name, -, containerId, -, state, hstate, rfl⟩ := h
  obtain ⟨hagain, hfits⟩ :=
    ContainerState.faithful.defaulted ContainerState.blank_written hf hstate
  refine ⟨by simp [decode?, json, hagain], fun depth ht hfree => ?_⟩
  simp [json, hfits depth ht hfree]

/-! ### Pods -/

/-- What the containers of a pod wait for has no numbers other than integers. -/
def Pod.FloatFree (p : Pod) : Prop := ∀ c ∈ p.containers, c.state.FloatFree

@[simp] theorem PodStatus.blank_written : decode? blank.json.term = some blank ∧
    ∀ depth, blank.json.Fits (depth + 5) := by
  simp [decode?, json, blank, timeJson, Json.ofOption]

theorem PodStatus.faithful : Faithful decode? json 5 fun s =>
    ∀ c ∈ s.containerStatuses ++ s.initContainerStatuses, c.state.FloatFree := by
  intro t s h
  simp only [decode?, Option.bind_eq_bind, Option.bind_eq_some_iff, Option.pure_def,
    Option.some.injEq] at h
  obtain ⟨f, hf, start, hstart, containers, hcontainers, inits, hinits, rfl⟩ := h
  obtain ⟨hagain, hfits⟩ := optional_time hf hstart
  obtain ⟨hagain1, hfits1⟩ := ContainerStatus.faithful.list.defaulted (by simp) hf hcontainers
  obtain ⟨hagain2, hfits2⟩ := ContainerStatus.faithful.list.defaulted (by simp) hf hinits
  refine ⟨by simp [decode?, json, hagain, hagain1, hagain2], fun depth ht hfree => ?_⟩
  obtain ⟨hfree1, hfree2⟩ := List.forall_mem_append.1 hfree
  exact Json.fits_object (by simp [hfits, hfits1 depth ht hfree1, hfits2 depth ht hfree2])

theorem Pod.faithful : Faithful decode? json 6 Pod.FloatFree := by
  intro t p h
  simp only [decode?, Option.bind_eq_bind, Option.bind_eq_some_iff, Option.pure_def,
    Option.some.injEq] at h
  obtain ⟨f, hf, metadata, hmetadata, spec, -, status, hstatus, rfl⟩ := h
  obtain ⟨hagain, hfits⟩ := ObjectMeta.faithful.defaulted ObjectMeta.blank_written hf hmetadata
  obtain ⟨hagain1, hfits1⟩ := PodStatus.faithful.defaulted PodStatus.blank_written hf hstatus
  refine ⟨by simp [decode?, json, hagain, hagain1], fun depth ht hfree => ?_⟩
  simp [json, hfits (depth + 3) ht, hfits1 depth ht hfree]

end CloudInventory.Kube
