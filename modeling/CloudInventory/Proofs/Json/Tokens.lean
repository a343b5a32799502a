import CloudInventory.Json.Lexer
import CloudInventory.Json.Printer
import CloudInventory.Proofs.Json.Integers

/-!
The tokens of a written value. The text of a value is scanned to the tokens of the value, whatever
stands before it; a number or a word at its end is not a token yet, but is one to whatever may
follow a value (`Settled`).
-/

namespace CloudInventory

/-! ### Runs of a machine -/

section

variable {σ α : Type} {step? : σ → α → Option σ} {s m : σ}

/-- A run that begins with a step. -/
theorem foldlM_cons_of_some {a : α} (h : step? s a = some m) (as : List α) :
    (a :: as).foldlM step? s = as.foldlM step? m := by
  rw [List.foldlM_cons, h]
  rfl

/-- A run that begins with a run. -/
theorem foldlM_append_of_some {as : List α} (h : as.foldlM step? s = some m) (bs : List α) :
    (as ++ bs).foldlM step? s = bs.foldlM step? m := by
  rw [List.foldlM_append, h]
  rfl

/-- What every step keeps, a run keeps. -/
theorem foldlM_preserves {P : σ → Prop} : ∀ {as : List α} {s s' : σ},
    (∀ a ∈ as, ∀ s s', P s → step? s a = some s' → P s') → P s → as.foldlM step? s = some s' → P s'
  | [], _, _, _, hs, h => by cases h; exact hs
  | a :: as, s, s', hstep, hs, h => by
    rw [List.foldlM_cons] at h
    obtain ⟨m, hm, h⟩ := Option.bind_eq_some_iff.1 h
    obtain ⟨ha, has⟩ := List.forall_mem_cons.1 hstep
    exact foldlM_preserves has (ha s m hs hm) h

end

/-! ### Strings -/

namespace Token

theorem hexValue?_hexDigit : ∀ n < 16, Text.hexValue? (Json.hexDigit n) = some n := by decide

/-- The piece that is read from the text of a character. -/
def piece (c : Char) : Piece :=
  if c.toNat < 0x20 ∧ c ∉ ['\x08', '\x0c', '\n', '\r', '\t'] then .unit c.toNat else .char c

/-- The text of a character inside a string is read as one piece. -/
theorem foldlM_escape (c : Char) (pieces : List Piece) (done : List Token) :
    (Json.escape c).foldlM step? ⟨.string pieces, done⟩ =
      some ⟨.string (piece c :: pieces), done⟩ := by
  unfold Json.escape
  split
  case h_8 hquote hslash hb hf hn hr ht =>
    have hspecial : c ∉ ['\x08', '\x0c', '\n', '\r', '\t'] := by simp_all
    split
    case isTrue hcontrol =>
      have h1 := hexValue?_hexDigit (c.toNat / 16) (by omega)
      have h2 := hexValue?_hexDigit (c.toNat % 16) (by omega)
      have h0 : Text.hexValue? '0' = some 0 := rfl
      have hvalue : (c.toNat / 16) * 16 + c.toNat % 16 = c.toNat := by omega
      simp [List.foldlM, step?, h0, h1, h2, piece, hcontrol, hspecial, hvalue]
    case isFalse hcontrol =>
      have hq : c ≠ '"' := hquote
      have hs : c ≠ '\\' := hslash
      simp [List.foldlM, step?, hq, hs, piece, hcontrol]
  all_goals rfl

theorem foldlM_flatMap_escape (cs : List Char) (pieces : List Piece) (done : List Token) :
    (cs.flatMap Json.escape).foldlM step? ⟨.string pieces, done⟩ =
      some ⟨.string ((cs.map piece).reverse ++ pieces), done⟩ := by
  induction cs generalizing pieces with
  | nil => rfl
  | cons c cs ih =>
    rw [List.flatMap_cons, foldlM_append_of_some (foldlM_escape c pieces done), ih, List.map_cons,
      List.reverse_cons, List.append_assoc]
    rfl

/-- A code unit of a control character is no half of a surrogate pair. -/
theorem textOf_unit {u : Nat} (hu : u < 0x20) (rest : List Piece) :
    textOf (.unit u :: rest) = (textOf rest).map (Char.ofNat u :: ·) := by
  have hhigh : isHigh u = false := by simp [isHigh]; omega
  have hlow : isLow u = false := by simp [isLow]; omega
  cases rest with
  | nil => simp [textOf, hhigh, hlow]
  | cons p rest => cases p <;> simp [textOf, hhigh, hlow]

theorem textOf_map_piece (cs : List Char) : textOf (cs.map piece) = some cs := by
  induction cs with
  | nil => rfl
  | cons c cs ih =>
    rw [List.map_cons, piece]
    split
    case isTrue h => rw [textOf_unit h.1, ih, Option.map_some, Char.ofNat_toNat]
    case isFalse => rw [textOf, ih, Option.map_some]

/-! ### What may follow a value -/

/-- A text is scanned to whole tokens, whatever stands before it. -/
def Passes (text : List Char) (ts : List Token) : Prop :=
  ∀ done, text.foldlM step? ⟨.between, done⟩ = some ⟨.between, ts.reverse ++ done⟩

/-- The characters that may follow a value in a text. -/
def closers : List Char := [',', ']', '\x7d']

theorem mem_closers {c : Char} : c ∈ closers ↔ c = ',' ∨ c = ']' ∨ c = '\x7d' := by simp [closers]

/-- The scanner has seen `done`: whatever may follow a value ends the token in progress. -/
structure Settled (s : Scanner) (done : List Token) : Prop where
  close : close? s = some done
  step : ∀ c ∈ closers, step? s c = open? done c

/-- A text is scanned to tokens of which the last may have to be ended by what follows. -/
def Scans (text : List Char) (ts : List Token) : Prop :=
  ∀ done, ∃ s, text.foldlM step? ⟨.between, done⟩ = some s ∧ Settled s (ts.reverse ++ done)

theorem Passes.scans {text : List Char} {ts : List Token} (h : Passes text ts) : Scans text ts :=
  fun done => ⟨_, h done, rfl, fun _ _ => rfl⟩

theorem Passes.append {a b : List Char} {as bs : List Token} (ha : Passes a as)
    (hb : Passes b bs) : Passes (a ++ b) (as ++ bs) := by
  intro done
  rw [foldlM_append_of_some (ha done), hb, List.reverse_append, List.append_assoc]

theorem Passes.append_scans {a b : List Char} {as bs : List Token} (ha : Passes a as)
    (hb : Scans b bs) : Scans (a ++ b) (as ++ bs) := by
  intro done
  obtain ⟨s, hs, hsettled⟩ := hb (as.reverse ++ done)
  refine ⟨s, ?_, ?_⟩
  · rw [foldlM_append_of_some (ha done), hs]
  · rwa [List.reverse_append, List.append_assoc]

/-- A mark ends what stands before it. -/
theorem Scans.append_mark {text : List Char} {ts : List Token} (h : Scans text ts) {c : Char}
    {t : Token} (hc : c ∈ closers) (ht : ∀ done, open? done c = some ⟨.between, t :: done⟩) :
    Passes (text ++ [c]) (ts ++ [t]) := by
  intro done
  obtain ⟨s, hs, hsettled⟩ := h done
  rw [foldlM_append_of_some hs, List.foldlM_cons, hsettled.step c hc, ht, List.reverse_append]
  rfl

theorem scan?_of_scans {text : List Char} {ts : List Token} (h : Scans text ts) :
    scan? text = some ts := by
  obtain ⟨s, hs, hsettled⟩ := h []
  rw [scan?, hs, Option.bind_some, hsettled.close, Option.map_some, List.append_nil,
    List.reverse_reverse]

/-! ### Single tokens -/

/-- A written string is one token. -/
theorem passes_quoted (s : String) : Passes (Json.quoted s).toList [.str (some s)] := by
  intro done
  have hopen : step? ⟨.between, done⟩ '"' = some ⟨.string [], done⟩ := rfl
  rw [Json.quoted, String.toList_ofList, foldlM_cons_of_some hopen,
    foldlM_append_of_some (foldlM_flatMap_escape s.toList [] done), List.foldlM_cons]
  simp [step?, textOf_map_piece]

/-- The name of a member, with what separates it from its value. -/
theorem passes_name (k : String) :
    Passes ((Json.quoted k).toList ++ [':']) [.str (some k), .colon] := by
  have hcolon : Passes [':'] [.colon] := fun _ => rfl
  exact (passes_quoted k).append hcolon

theorem scans_word {word : List Char} {t : Token} (h : ofWord? word = some t)
    (hword : ∀ done, word.foldlM step? ⟨.between, done⟩ = some ⟨.word word.reverse, done⟩) :
    Scans word [t] := by
  intro done
  have hclose : close? ⟨.word word.reverse, done⟩ = some (t :: done) := by simp [close?, h]
  refine ⟨_, hword done, hclose, fun c hc => ?_⟩
  have halpha : c.isAlpha = false := by
    obtain rfl | rfl | rfl := mem_closers.1 hc <;> rfl
  rw [step?]
  simp [halpha, hclose]

theorem foldlM_number {cs : List Char} (h : ∀ c ∈ cs, isNumberChar c = true) (before : List Char)
    (done : List Token) :
    cs.foldlM step? ⟨.number before, done⟩ = some ⟨.number (cs.reverse ++ before), done⟩ := by
  induction cs generalizing before with
  | nil => rfl
  | cons c cs ih =>
    obtain ⟨hc, hcs⟩ := List.forall_mem_cons.1 h
    have hstep : step? ⟨.number before, done⟩ c = some ⟨.number (c :: before), done⟩ := by
      simp [step?, hc]
    rw [foldlM_cons_of_some hstep, ih hcs, List.reverse_cons, List.append_assoc]
    rfl

theorem open?_digit {c : Char} (h : c.isDigit = true) {done : List Token} :
    open? done c = some ⟨.number [c], done⟩ := by
  have hbounds : 48 ≤ c.toNat ∧ c.toNat ≤ 57 := by
    rw [Char.isDigit, Bool.and_eq_true, decide_eq_true_eq, decide_eq_true_eq] at h
    exact h
  have hne {d : Char} (hd : d.toNat < 48) : c ≠ d := by rintro rfl; omega
  have hspace : isSpace c = false := by
    simp [isSpace, hne (d := ' ') (by decide), hne (d := '\t') (by decide),
      hne (d := '\n') (by decide), hne (d := '\r') (by decide)]
  have hupper : ¬ c.isUpper = true := fun h => by
    have : 65 ≤ c.toNat := UInt32.le_iff_toNat_le.1 (of_decide_eq_true h).1
    omega
  have hlower : ¬ c.isLower = true := fun h => by
    have : 97 ≤ c.toNat := UInt32.le_iff_toNat_le.1 (of_decide_eq_true (Bool.and_eq_true_iff.1 h).1)
    omega
  have halpha : c.isAlpha = false := Bool.or_eq_false_iff.2
    ⟨Bool.eq_false_iff.2 hupper, Bool.eq_false_iff.2 hlower⟩
  simp [open?, hspace, hne (d := '"') (by decide), halpha, h]

theorem scans_number {c : Char} {cs : List Char} {n : Option Number}
    (hopen : ∀ done, open? done c = some ⟨.number [c], done⟩)
    (hcs : ∀ c ∈ cs, isNumberChar c = true) (h : Number.read? (c :: cs) = some n) :
    Scans (c :: cs) [.num n] := by
  intro done
  have hclose : close? ⟨.number (cs.reverse ++ [c]), done⟩ = some (.num n :: done) := by
    simp [close?, h]
  refine ⟨⟨.number (cs.reverse ++ [c]), done⟩, ?_, hclose, fun c hc => ?_⟩
  · have hstep : step? ⟨.between, done⟩ c = some ⟨.number [c], done⟩ := hopen done
    rw [foldlM_cons_of_some hstep, foldlM_number hcs]
  · have hnumber : isNumberChar c = false := by
      obtain rfl | rfl | rfl := mem_closers.1 hc <;> rfl
    rw [step?]
    simp [hnumber, hclose]

end Token

/-! ### The tokens of a value -/

namespace Json

open Token

mutual

/-- The tokens of a value. -/
def tokens : Json → List Token
  | null => [.null]
  | bool b => [.bool b]
  | num n => [.num (some n)]
  | str s => [.str (some s)]
  | arr items => .beginList :: itemTokens items ++ [.endList]
  | obj members => .beginObject :: memberTokens members ++ [.endObject]

/-- The tokens of a list's items, with commas between them. -/
def itemTokens : List Json → List Token
  | [] => []
  | [j] => tokens j
  | j :: js => tokens j ++ .comma :: itemTokens js

/-- The tokens of an object's members, with commas between them. -/
def memberTokens : List (String × Json) → List Token
  | [] => []
  | [(k, j)] => .str (some k) :: .colon :: tokens j
  | (k, j) :: ms => .str (some k) :: .colon :: tokens j ++ .comma :: memberTokens ms

end

theorem scans_int {n : Int} (h : (Number.int n).Small) :
    Scans (Number.int n).render.toList [.num (some (.int n))] := by
  have hread := Number.read?_render h
  have hdigits (m : Nat) : ∀ c ∈ Nat.toDigits 10 m, isNumberChar c = true := fun c hc => by
    simp [isNumberChar, Text.all_isDigit_toDigits m c hc]
  cases n with
  | ofNat m =>
    have htext : (Number.int (Int.ofNat m)).render.toList = Nat.toDigits 10 m := Nat.toList_repr
    obtain ⟨d, ds, hds⟩ := List.exists_cons_of_ne_nil (Nat.toDigits_ne_nil (n := m) (b := 10))
    rw [htext, hds] at hread ⊢
    have hall := hds ▸ hdigits m
    have hd : d.isDigit = true := Text.all_isDigit_toDigits m d (hds ▸ List.mem_cons_self)
    refine scans_number (fun done => open?_digit hd) (fun c hc => ?_) hread
    exact hall c (List.mem_cons_of_mem d hc)
  | negSucc m =>
    have htext : (Number.int (Int.negSucc m)).render.toList = '-' :: Nat.toDigits 10 (m + 1) := by
      show ("-" ++ Nat.repr (m + 1)).toList = _
      simp
    rw [htext] at hread ⊢
    exact scans_number (fun _ => rfl) (hdigits (m + 1)) hread

mutual

/-- The text of a value is scanned to its tokens. -/
theorem scans_render : ∀ {j : Json} {depth : Nat}, j.Fits depth → Scans j.render.toList j.tokens
  | null, _, _ => scans_word rfl fun _ => rfl
  | bool true, _, _ => scans_word rfl fun _ => rfl
  | bool false, _, _ => scans_word rfl fun _ => rfl
  | num (.int n), _, h => scans_int (by simpa [Fits, term, Term.Within] using h.1)
  | num (.real x), _, h => absurd h.2 (by simp [FloatFree])
  | str s, _, _ => (passes_quoted s).scans
  | arr items, 0, h => absurd h.1 (by simp [term, Term.Within])
  | obj members, 0, h => absurd h.1 (by simp [term, Term.Within])
  | arr items, depth + 1, h => by
    have hopen : Passes ['['] [.beginList] := fun _ => rfl
    have hitems := hopen.append_scans (scans_renderItems (fits_arr.1 h))
    have hclose := hitems.append_mark (c := ']') (by decide) fun _ => rfl
    rw [render, String.toList_append, String.toList_append]
    exact hclose.scans
  | obj members, depth + 1, h => by
    have hopen : Passes ['\x7b'] [.beginObject] := fun _ => rfl
    have hmembers := hopen.append_scans (scans_renderMembers (fits_obj.1 h))
    have hclose := hmembers.append_mark (c := '\x7d') (by decide) fun _ => rfl
    rw [render, String.toList_append, String.toList_append]
    exact hclose.scans

theorem scans_renderItems : ∀ {js : List Json} {depth : Nat}, (∀ j ∈ js, j.Fits depth) →
    Scans (renderItems js).toList (itemTokens js)
  | [], _, _ => Passes.scans fun _ => rfl
  | [j], _, h => scans_render (h j List.mem_cons_self)
  | j :: k :: js, _, h => by
    obtain ⟨hj, hjs⟩ := List.forall_mem_cons.1 h
    have hfirst := (scans_render hj).append_mark (c := ',') (by decide) fun _ => rfl
    have hall := hfirst.append_scans (scans_renderItems hjs)
    have htokens : itemTokens (j :: k :: js) = j.tokens ++ [.comma] ++ itemTokens (k :: js) := by
      simp [itemTokens]
    rw [htokens, renderItems, String.toList_append, String.toList_append]
    · exact hall
    · nofun

theorem scans_renderMembers : ∀ {ms : List (String × Json)} {depth : Nat},
    (∀ m ∈ ms, m.2.Fits depth) → Scans (renderMembers ms).toList (memberTokens ms)
  | [], _, _ => Passes.scans fun _ => rfl
  | [(k, j)], _, h => by
    have hall := (passes_name k).append_scans (scans_render (h (k, j) List.mem_cons_self))
    rw [renderMembers, String.toList_append, String.toList_append, memberTokens]
    exact hall
  | (k, j) :: m :: ms, _, h => by
    obtain ⟨hj, hms⟩ := List.forall_mem_cons.1 h
    have hmember := (passes_name k).append_scans (scans_render hj)
    have hfirst := hmember.append_mark (c := ',') (by decide) fun _ => rfl
    have hall := hfirst.append_scans (scans_renderMembers hms)
    have htokens : memberTokens ((k, j) :: m :: ms) =
        [.str (some k), .colon] ++ j.tokens ++ [.comma] ++ memberTokens (m :: ms) := by
      simp [memberTokens]
    rw [htokens, renderMembers, String.toList_append, String.toList_append, String.toList_append,
      String.toList_append]
    · exact hall
    · nofun

end

end Json

end CloudInventory
