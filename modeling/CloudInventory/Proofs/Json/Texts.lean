import CloudInventory.Json.Parser
import CloudInventory.Proofs.Json.Tokens

/-!
Reading the text of a value. A value that `Fits` the nesting that is read is read back from its text
(`read?_render`), and conversely what is read from any text is within that nesting
(`within_of_read?`).
-/

namespace CloudInventory

namespace Term

open Json (tokens itemTokens memberTokens)

/-! ### Written values are read -/

variable {frames : List Frame} {depth : Nat}

theorem within_of_length {t : Term} (h : frames.length < nesting) : within frames t = t := by
  rw [within, if_pos]
  rw [List.isEmpty_iff, List.drop_eq_nil_iff]
  omega

/-- A first item is taken like any other. -/
theorem foldlM_firstItem (j : Json) (js : List Json) :
    (itemTokens (j :: js)).foldlM Reader.step? ⟨frames, .firstItem⟩ =
      (itemTokens (j :: js)).foldlM Reader.step? ⟨frames, .value⟩ := by
  obtain ⟨t, ts, hts, ht⟩ : ∃ t ts, itemTokens (j :: js) = t :: ts ∧ t ≠ .endList := by
    cases js <;> cases j <;> exact ⟨_, _, rfl, nofun⟩
  have hstep : Reader.step? ⟨frames, .firstItem⟩ t = Reader.step? ⟨frames, .value⟩ t := by
    cases t <;> first | rfl | exact absurd rfl ht
  rw [hts, List.foldlM_cons, List.foldlM_cons, hstep]

/-- A first member is taken like any other. -/
theorem foldlM_firstKey (m : String × Json) (ms : List (String × Json)) :
    (memberTokens (m :: ms)).foldlM Reader.step? ⟨frames, .firstKey⟩ =
      (memberTokens (m :: ms)).foldlM Reader.step? ⟨frames, .key⟩ := by
  cases ms <;> rfl

theorem ofMembers_named (members : List (String × Term)) :
    ofMembers (members.map fun m => (some m.1, m.2)) = .obj members := by
  have hnamed : namedMembers? (members.map fun m => (some m.1, m.2)) = some members := by
    induction members with
    | nil => rfl
    | cons m members ih => rw [List.map_cons, namedMembers?, ih, Option.map_some]
  rw [ofMembers, hnamed]

mutual

/-- The tokens of a value are taken as the value, where what is around it leaves it room. -/
theorem foldlM_tokens : ∀ {j : Json} {depth : Nat} {frames : List Frame}, j.term.Within depth →
    frames.length + depth ≤ nesting →
    (tokens j).foldlM Reader.step? ⟨frames, .value⟩ = some (Reader.put j.term frames)
  | .null, _, _, _, _ | .bool _, _, _, _, _ | .num _, _, _, _, _ | .str _, _, _, _, _ => rfl
  | .arr _, 0, _, h, _ | .obj _, 0, _, h, _ => absurd h (by simp [Json.term, Within])
  | .arr [], depth + 1, frames, _, hroom => by
    rw [Json.term, ← within_of_length (t := .arr _) (show frames.length < nesting by omega)]
    rfl
  | .arr (j :: js), depth + 1, frames, h, hroom => by
    rw [Json.term, Json.termItems_eq_map] at h ⊢
    have hitems := foldlM_itemTokens (j :: js) [] (List.cons_ne_nil j js)
      (List.forall_mem_map.1 (within_arr.1 h)) (show frames.length + 1 + depth ≤ nesting by omega)
    have hopen : Reader.step? ⟨frames, .value⟩ .beginList = some ⟨.list [] :: frames, .firstItem⟩ :=
      rfl
    rw [← within_of_length (t := .arr _) (show frames.length < nesting by omega), tokens,
      List.cons_append, foldlM_cons_of_some hopen,
      foldlM_append_of_some ((foldlM_firstItem j js).trans hitems), List.append_nil]
    show some (Reader.put (within frames (.arr (List.reverse (List.reverse _)))) frames) = _
    rw [List.reverse_reverse]
  | .obj [], depth + 1, frames, _, hroom => by
    rw [Json.term, ← within_of_length (t := .obj _) (show frames.length < nesting by omega)]
    rfl
  | .obj (m :: ms), depth + 1, frames, h, hroom => by
    rw [Json.term, Json.termMembers_eq_map] at h ⊢
    have hvalues : ∀ n ∈ m :: ms, n.2.term.Within depth := fun n hn =>
      within_obj.1 h (n.1, n.2.term) (List.mem_map.2 ⟨n, hn, rfl⟩)
    obtain ⟨key, hmembers⟩ := foldlM_memberTokens (m :: ms) [] none (List.cons_ne_nil m ms) hvalues
      (show frames.length + 1 + depth ≤ nesting by omega)
    have hopen : Reader.step? ⟨frames, .value⟩ .beginObject =
        some ⟨.object [] none :: frames, .firstKey⟩ := rfl
    rw [← within_of_length (t := .obj _) (show frames.length < nesting by omega), tokens,
      List.cons_append, foldlM_cons_of_some hopen,
      foldlM_append_of_some ((foldlM_firstKey m ms).trans hmembers), List.append_nil]
    show some (Reader.put (within frames (ofMembers (List.reverse (List.reverse _)))) frames) = _
    rw [List.reverse_reverse, ← ofMembers_named, List.map_map]
    rfl

/-- The items of a list that has been opened are taken one after another. -/
theorem foldlM_itemTokens : ∀ (js : List Json) {depth : Nat} {frames : List Frame}
    (items : List Term), js ≠ [] → (∀ j ∈ js, j.term.Within depth) →
    frames.length + 1 + depth ≤ nesting →
    (itemTokens js).foldlM Reader.step? ⟨.list items :: frames, .value⟩ =
      some ⟨.list ((js.map Json.term).reverse ++ items) :: frames, .afterItem⟩
  | [], _, _, _, hne, _, _ => absurd rfl hne
  | [j], _, frames, items, _, h, hroom =>
    foldlM_tokens (h j List.mem_cons_self)
      (show (Frame.list items :: frames).length + _ ≤ _ from hroom)
  | j :: k :: js, _, frames, items, _, h, hroom => by
    obtain ⟨hj, hjs⟩ := List.forall_mem_cons.1 h
    have hfirst : (tokens j).foldlM Reader.step? ⟨.list items :: frames, .value⟩ =
        some ⟨.list (j.term :: items) :: frames, .afterItem⟩ :=
      foldlM_tokens hj (show (Frame.list items :: frames).length + _ ≤ _ from hroom)
    have hrest := foldlM_itemTokens (k :: js) (j.term :: items) (List.cons_ne_nil k js) hjs hroom
    have htokens : itemTokens (j :: k :: js) = tokens j ++ .comma :: itemTokens (k :: js) := by
      simp [itemTokens]
    have hcomma : Reader.step? ⟨.list (j.term :: items) :: frames, .afterItem⟩ .comma =
        some ⟨.list (j.term :: items) :: frames, .value⟩ := rfl
    rw [htokens, foldlM_append_of_some hfirst, foldlM_cons_of_some hcomma, hrest]
    simp

/-- The members of an object that has been opened are taken one after another. -/
theorem foldlM_memberTokens : ∀ (ms : List (String × Json)) {depth : Nat} {frames : List Frame}
    (members : List (Option String × Term)) (key : Option String), ms ≠ [] →
    (∀ m ∈ ms, m.2.term.Within depth) → frames.length + 1 + depth ≤ nesting →
    ∃ key', (memberTokens ms).foldlM Reader.step? ⟨.object members key :: frames, .key⟩ =
      some ⟨.object ((ms.map fun m => (some m.1, m.2.term)).reverse ++ members) key' :: frames,
        .afterItem⟩
  | [], _, _, _, _, hne, _, _ => absurd rfl hne
  | [(k, j)], _, frames, members, key, _, h, hroom =>
    ⟨some k, foldlM_tokens (h (k, j) List.mem_cons_self)
      (show (Frame.object members (some k) :: frames).length + _ ≤ _ from hroom)⟩
  | (k, j) :: m :: ms, _, frames, members, key, _, h, hroom => by
    obtain ⟨hj, hms⟩ := List.forall_mem_cons.1 h
    have hname : [Token.str (some k), .colon].foldlM Reader.step?
        ⟨.object members key :: frames, .key⟩ = some ⟨.object members (some k) :: frames, .value⟩ :=
      rfl
    have hfirst : (tokens j).foldlM Reader.step? ⟨.object members (some k) :: frames, .value⟩ =
        some ⟨.object ((some k, j.term) :: members) (some k) :: frames, .afterItem⟩ :=
      foldlM_tokens hj (show (Frame.object members (some k) :: frames).length + _ ≤ _ from hroom)
    obtain ⟨key', hrest⟩ := foldlM_memberTokens (m :: ms) ((some k, j.term) :: members) (some k)
      (List.cons_ne_nil m ms) hms hroom
    have htokens : memberTokens ((k, j) :: m :: ms) =
        [.str (some k), .colon] ++ (tokens j ++ .comma :: memberTokens (m :: ms)) := by
      simp [memberTokens]
    have hcomma : Reader.step?
        ⟨.object ((some k, j.term) :: members) (some k) :: frames, .afterItem⟩ .comma =
        some ⟨.object ((some k, j.term) :: members) (some k) :: frames, .key⟩ := rfl
    refine ⟨key', ?_⟩
    rw [htokens, foldlM_append_of_some hname, foldlM_append_of_some hfirst,
      foldlM_cons_of_some hcomma, hrest]
    simp

end

/-- A value that a text can say is read back from its text. -/
theorem read?_render {j : Json} (h : j.Fits nesting) : read? j.render = some j.term := by
  have htokens : j.tokens.foldlM Reader.step? ⟨[], .value⟩ = some (Reader.put j.term []) :=
    foldlM_tokens h.1 (by simp)
  rw [read?, Token.scan?_of_scans (Json.scans_render h), Option.bind_some, ofTokens?, htokens]
  rfl

end Term

/-! ### What is read is within the nesting -/

namespace Token

/-- A number of the token is an integer of 64 bits, or no integer. -/
def Small : Token → Prop
  | num (some n) => n.Small
  | _ => True

theorem small_of_close? {s : Scanner} {done : List Token} (hs : ∀ t ∈ s.done, t.Small)
    (h : close? s = some done) : ∀ t ∈ done, t.Small := by
  rw [close?] at h
  split at h
  · cases h; exact hs
  · obtain ⟨t, ht, rfl⟩ := Option.map_eq_some_iff.1 h
    refine List.forall_mem_cons.2 ⟨?_, hs⟩
    simp only [ofWord?] at ht
    split at ht
    · cases ht; trivial
    · split at ht
      · cases ht; trivial
      · split at ht <;> cases ht
        trivial
  · obtain ⟨n, hn, rfl⟩ := Option.map_eq_some_iff.1 h
    refine List.forall_mem_cons.2 ⟨?_, hs⟩
    cases n with
    | none => trivial
    | some n => exact Number.small_of_read? hn
  · cases h

theorem small_of_open? {done : List Token} {c : Char} {s : Scanner} (hdone : ∀ t ∈ done, t.Small)
    (h : open? done c = some s) : ∀ t ∈ s.done, t.Small := by
  rw [open?] at h
  split at h
  · cases h; exact hdone
  · split at h
    · cases h; exact hdone
    · split at h
      · cases h; exact hdone
      · split at h
        · cases h; exact hdone
        · obtain ⟨t, ht, rfl⟩ := Option.map_eq_some_iff.1 h
          refine List.forall_mem_cons.2 ⟨?_, hdone⟩
          unfold ofMark? at ht
          split at ht <;> cases ht <;> trivial

theorem small_of_step? {s s' : Scanner} {c : Char} (hs : ∀ t ∈ s.done, t.Small)
    (h : step? s c = some s') : ∀ t ∈ s'.done, t.Small := by
  have hend {s : Scanner} (hs : ∀ t ∈ s.done, t.Small)
      (h : ((close? s).bind fun done => open? done c) = some s') : ∀ t ∈ s'.done, t.Small := by
    obtain ⟨done, hclose, hopen⟩ := Option.bind_eq_some_iff.1 h
    exact small_of_open? (small_of_close? hs hclose) hopen
  rw [step?] at h
  split at h
  · exact small_of_open? hs h
  · split at h
    · cases h; exact hs
    · exact hend hs h
  · split at h
    · cases h; exact hs
    · exact hend hs h
  · split at h
    · cases h; exact List.forall_mem_cons.2 ⟨trivial, hs⟩
    · split at h
      · cases h; exact hs
      · split at h <;> cases h
        exact hs
  · split at h
    · cases h; exact hs
    · obtain ⟨e, -, rfl⟩ := Option.map_eq_some_iff.1 h
      exact hs
  · obtain ⟨d, -, rfl⟩ := Option.map_eq_some_iff.1 h
    split <;> exact hs

/-- Tokens of a text have integers of 64 bits only. -/
theorem small_of_scan? {text : List Char} {ts : List Token} (h : scan? text = some ts) :
    ∀ t ∈ ts, t.Small := by
  obtain ⟨s, hs, h⟩ := Option.bind_eq_some_iff.1 h
  obtain ⟨done, hdone, rfl⟩ := Option.map_eq_some_iff.1 h
  have hsmall : ∀ t ∈ s.done, t.Small :=
    foldlM_preserves (P := fun s => ∀ t ∈ s.done, t.Small) (fun _ _ _ _ => small_of_step?) nofun hs
  exact fun t ht => small_of_close? hsmall hdone t (List.mem_reverse.1 ht)

end Token

namespace Term

/-- The parts of a list or an object that is still open are within a depth. -/
def Frame.Within (depth : Nat) : Frame → Prop
  | .list items => ∀ t ∈ items, t.Within depth
  | .object members _ => ∀ m ∈ members, m.2.Within depth

/-- Each open list and object leaves its parts the depth that is left inside of it. -/
def FramesWithin : List Frame → Prop
  | [] => True
  | f :: rest => f.Within (nesting - (rest.length + 1)) ∧ FramesWithin rest

/-- What the reader has read is within the nesting. -/
def Reader.Within (r : Reader) : Prop :=
  FramesWithin r.frames ∧ ∀ t, r.next = .finish t → t.Within nesting

theorem Reader.within_put {t : Term} {frames : List Frame} (hframes : FramesWithin frames)
    (ht : t.Within (nesting - frames.length)) : (Reader.put t frames).Within := by
  cases frames with
  | nil =>
    refine ⟨trivial, fun t' h => ?_⟩
    cases h
    exact ht
  | cons f rest =>
    obtain ⟨hf, hrest⟩ := hframes
    cases f with
    | list items => exact ⟨⟨List.forall_mem_cons.2 ⟨ht, hf⟩, hrest⟩, nofun⟩
    | object members key => exact ⟨⟨List.forall_mem_cons.2 ⟨ht, hf⟩, hrest⟩, nofun⟩

/-- What is closed is within the depth that is left around it, or cannot be read. -/
theorem within_within {frames : List Frame} {t : Term}
    (ht : frames.length < nesting → t.Within (nesting - frames.length)) :
    (within frames t).Within (nesting - frames.length) := by
  by_cases h : frames.length < nesting
  · rw [within_of_length h]
    exact ht h
  · rw [within, if_neg]
    · trivial
    · rw [List.isEmpty_iff, List.drop_eq_nil_iff]
      have : 0 < nesting := by decide
      omega

theorem within_ofMembers {members : List (Option String × Term)} {depth : Nat}
    (h : ∀ m ∈ members, m.2.Within depth) : (ofMembers members).Within (depth + 1) := by
  have hnamed : ∀ {members : List (Option String × Term)} {named : List (String × Term)},
      (∀ m ∈ members, m.2.Within depth) → namedMembers? members = some named →
      ∀ m ∈ named, m.2.Within depth := by
    intro members
    induction members with
    | nil => intro named _ hn; cases hn; exact List.forall_mem_nil _
    | cons m members ih =>
      intro named hm hn
      obtain ⟨k, t⟩ := m
      cases k with
      | none => cases hn
      | some k =>
        obtain ⟨rest, hrest, rfl⟩ := Option.map_eq_some_iff.1 hn
        obtain ⟨ht, hms⟩ := List.forall_mem_cons.1 hm
        exact List.forall_mem_cons.2 ⟨ht, ih hms hrest⟩
  rw [ofMembers]
  split
  case h_1 named hn => exact within_obj.2 (hnamed h hn)
  case h_2 => trivial

theorem Reader.within_closeList? {frames : List Frame} {r : Reader} (hframes : FramesWithin frames)
    (h : Reader.closeList? frames = some r) : r.Within := by
  unfold Reader.closeList? at h
  split at h <;> cases h
  case h_1 items rest =>
    refine Reader.within_put hframes.2 (within_within fun hlt => ?_)
    rw [show nesting - rest.length = nesting - (rest.length + 1) + 1 by omega, within_arr]
    exact fun t ht => hframes.1 t (List.mem_reverse.1 ht)

theorem Reader.within_closeObject? {frames : List Frame} {r : Reader}
    (hframes : FramesWithin frames) (h : Reader.closeObject? frames = some r) : r.Within := by
  unfold Reader.closeObject? at h
  split at h <;> cases h
  case h_1 members key rest =>
    refine Reader.within_put hframes.2 (within_within fun hlt => ?_)
    rw [show nesting - rest.length = nesting - (rest.length + 1) + 1 by omega]
    exact within_ofMembers fun m hm => hframes.1 m (List.mem_reverse.1 hm)

theorem Reader.within_begin? {frames : List Frame} {t : Token} {r : Reader}
    (hframes : FramesWithin frames) (ht : t.Small) (h : Reader.begin? frames t = some r) :
    r.Within := by
  unfold Reader.begin? at h
  split at h <;> cases h
  case h_1 => exact ⟨⟨List.forall_mem_nil _, hframes⟩, by simp⟩
  case h_2 => exact ⟨⟨List.forall_mem_nil _, hframes⟩, by simp⟩
  case h_5 n => exact Reader.within_put hframes (by simpa [Term.Within, Token.Small] using ht)
  all_goals exact Reader.within_put hframes (by simp [Term.Within])

theorem Reader.within_name? {frames : List Frame} {key : Option String} {r : Reader}
    (hframes : FramesWithin frames) (h : Reader.name? frames key = some r) : r.Within := by
  unfold Reader.name? at h
  split at h <;> cases h
  exact ⟨hframes, nofun⟩

theorem Reader.within_step? {r r' : Reader} {t : Token} (ht : t.Small) (hr : r.Within)
    (h : r.step? t = some r') : r'.Within := by
  unfold Reader.step? at h
  split at h
  · exact Reader.within_closeList? hr.1 h
  · exact Reader.within_begin? hr.1 ht h
  · exact Reader.within_begin? hr.1 ht h
  · exact Reader.within_closeObject? hr.1 h
  · exact Reader.within_name? hr.1 h
  · exact Reader.within_name? hr.1 h
  · cases h; exact ⟨hr.1, nofun⟩
  · split at h <;> cases h
    · exact ⟨hr.1, nofun⟩
    · exact ⟨hr.1, nofun⟩
  · exact Reader.within_closeList? hr.1 h
  · exact Reader.within_closeObject? hr.1 h
  · cases h

/-- What is read from a text is within the nesting. -/
theorem within_of_read? {text : String} {t : Term} (h : read? text = some t) :
    t.Within nesting := by
  obtain ⟨tokens, htokens, h⟩ := Option.bind_eq_some_iff.1 h
  rw [ofTokens?] at h
  split at h <;> cases h
  case h_1 frames hrun =>
    have hsmall := Token.small_of_scan? htokens
    have hstart : Reader.Within ⟨[], .value⟩ := ⟨trivial, nofun⟩
    have hend := foldlM_preserves (fun t ht _ _ => Reader.within_step? (hsmall t ht)) hstart hrun
    exact hend.2 t rfl

end Term

end CloudInventory
