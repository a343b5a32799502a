import CloudInventory.Json.NumberText
import CloudInventory.Text.Hex

/-!
The tokens of a JSON text. The scanner takes one character at a time; its state says what kind of
token it is in. A text with no tokens for it (a control character in a string, an unknown word, a
digit out of place) is refused. A string with half of a surrogate pair and a number beyond the
range are tokens without a value.
-/

namespace CloudInventory

/-- A token. A string or a number is `none` when its text is well formed but has no value. -/
inductive Token where
  | beginList
  | endList
  | beginObject
  | endObject
  | comma
  | colon
  | null
  | bool (b : Bool)
  | num (n : Option Number)
  | str (s : Option String)
  deriving Repr

namespace Token

/-- A piece of a string: a character, or a code unit written as four hexadecimal digits. -/
inductive Piece where
  | char (c : Char)
  | unit (u : Nat)

/-- A code unit that opens a surrogate pair. -/
def isHigh (u : Nat) : Bool := 0xD800 ≤ u && u < 0xDC00

/-- A code unit that closes a surrogate pair. -/
def isLow (u : Nat) : Bool := 0xDC00 ≤ u && u < 0xE000

/-- The text of a list of pieces; none when a surrogate has no partner right beside it. -/
def textOf : List Piece → Option (List Char)
  | [] => some []
  | .char c :: rest => (textOf rest).map (c :: ·)
  | .unit h :: .unit l :: rest =>
    if isHigh h then
      if isLow l then
        (textOf rest).map (Char.ofNat (0x10000 + (h - 0xD800) * 0x400 + (l - 0xDC00)) :: ·)
      else none
    else if isLow h then none
    else (textOf (.unit l :: rest)).map (Char.ofNat h :: ·)
  | .unit u :: rest =>
    if isHigh u || isLow u then none else (textOf rest).map (Char.ofNat u :: ·)

/-- What the scanner is in the middle of. The pieces of a string and the characters of a word are
kept last first. -/
inductive Mode where
  | between
  | word (cs : List Char)
  | number (cs : List Char)
  | string (pieces : List Piece)
  | escape (pieces : List Piece)
  | hex (pieces : List Piece) (digits value : Nat)

/-- The scanner: what it is in the middle of, and the tokens so far, last first. -/
structure Scanner where
  mode : Mode
  done : List Token

/-- The blanks between tokens. -/
def isSpace (c : Char) : Bool := c = ' ' || c = '\t' || c = '\n' || c = '\r'

/-- The characters a number may hold. -/
def isNumberChar (c : Char) : Bool :=
  c.isDigit || c = '-' || c = '+' || c = '.' || c = 'e' || c = 'E'

/-- The character that a one-letter escape stands for. -/
def escaped? (c : Char) : Option Char :=
  match c with
  | '"' => some '"'
  | '\\' => some '\\'
  | '/' => some '/'
  | 'b' => some '\x08'
  | 'f' => some '\x0c'
  | 'n' => some '\n'
  | 'r' => some '\r'
  | 't' => some '\t'
  | _ => none

/-- The token of a word. -/
def ofWord? (word : List Char) : Option Token :=
  if word = ['n', 'u', 'l', 'l'] then some .null
  else if word = ['t', 'r', 'u', 'e'] then some (.bool true)
  else if word = ['f', 'a', 'l', 's', 'e'] then some (.bool false)
  else none

/-- The token of one character. -/
def ofMark? (c : Char) : Option Token :=
  match c with
  | '[' => some .beginList
  | ']' => some .endList
  | '\x7b' => some .beginObject
  | '\x7d' => some .endObject
  | ',' => some .comma
  | ':' => some .colon
  | _ => none

/-- Take a character between two tokens. -/
def open? (done : List Token) (c : Char) : Option Scanner :=
  if isSpace c then some ⟨.between, done⟩
  else if c = '"' then some ⟨.string [], done⟩
  else if c.isAlpha then some ⟨.word [c], done⟩
  else if c.isDigit || c = '-' then some ⟨.number [c], done⟩
  else (ofMark? c).map fun t => ⟨.between, t :: done⟩

/-- The tokens once the word or number in progress has ended; none inside a string. -/
def close? (s : Scanner) : Option (List Token) :=
  match s.mode with
  | .between => some s.done
  | .word cs => (ofWord? cs.reverse).map (· :: s.done)
  | .number cs => (Number.read? cs.reverse).map fun n => .num n :: s.done
  | _ => none

/-- Take one character. -/
def step? (s : Scanner) (c : Char) : Option Scanner :=
  match s.mode with
  | .between => open? s.done c
  | .word cs =>
    if c.isAlpha then some ⟨.word (c :: cs), s.done⟩
    else (close? s).bind fun done => open? done c
  | .number cs =>
    if isNumberChar c then some ⟨.number (c :: cs), s.done⟩
    else (close? s).bind fun done => open? done c
  | .string pieces =>
    if c = '"' then some ⟨.between, .str ((textOf pieces.reverse).map String.ofList) :: s.done⟩
    else if c = '\\' then some ⟨.escape pieces, s.done⟩
    else if c.toNat < 0x20 then none
    else some ⟨.string (.char c :: pieces), s.done⟩
  | .escape pieces =>
    if c = 'u' then some ⟨.hex pieces 0 0, s.done⟩
    else (escaped? c).map fun e => ⟨.string (.char e :: pieces), s.done⟩
  | .hex pieces digits value =>
    (Text.hexValue? c).map fun d =>
      if digits = 3 then ⟨.string (.unit (value * 16 + d) :: pieces), s.done⟩
      else ⟨.hex pieces (digits + 1) (value * 16 + d), s.done⟩

/-- The tokens of a text. -/
def scan? (text : List Char) : Option (List Token) :=
  (text.foldlM step? ⟨.between, []⟩).bind fun s => (close? s).map List.reverse

end Token

end CloudInventory
