import CloudInventory.Json.Term
import CloudInventory.Text.Hex

/-!
The words of a TOML text: blanks, line ends, comments, strings, numbers, dates and times. Each
reader takes the text from where it is and answers the rest.

A number that is not finite has no JSON value, so it is unreadable like any other such value; an
unsigned overflow is an error. A date or a time is an object whose one member no structure
declares.
-/

namespace CloudInventory.Toml

/-! ### Blanks, comments and line ends -/

/-- The blanks within a line. -/
def isBlank (c : Char) : Bool := c = ' ' || c = '\t'

/-- A character that may stand in a line: a tab, or no control character. -/
def isPlain (c : Char) : Bool := c = '\t' || (0x20 ≤ c.toNat && c.toNat ≠ 0x7F)

/-- The rest behind blanks. -/
def skipBlanks (cs : List Char) : List Char := cs.dropWhile isBlank

/-- The rest behind a line end. -/
def newline? : List Char → Option (List Char)
  | '\n' :: rest => some rest
  | '\r' :: '\n' :: rest => some rest
  | _ => none

/-- The rest behind a comment, if there is one. -/
def skipComment : List Char → List Char
  | '#' :: rest => rest.dropWhile isPlain
  | cs => cs

/-- The rest behind the end of a line, which may have a comment, or the end of the text. -/
def endOfLine? (cs : List Char) : Option (List Char) :=
  match skipComment (skipBlanks cs) with
  | [] => some []
  | cs => newline? cs

/-! ### Strings -/

/-- The character of a code point that has one. -/
def charOf? (n : Nat) : Option Char := if n.isValidChar then some (Char.ofNat n) else none

/-- The character that a number of hexadecimal digits stand for, with the rest behind them. -/
def codePoint? (digits : Nat) (cs : List Char) : Option (Char × List Char) :=
  if cs.length < digits then none
  else ((Text.hexNumber? (cs.take digits)).bind charOf?).map fun c => (c, cs.drop digits)

/-- What stands behind a backslash. -/
def escape? : List Char → Option (Char × List Char)
  | 'b' :: rest => some ('\x08', rest)
  | 't' :: rest => some ('\t', rest)
  | 'n' :: rest => some ('\n', rest)
  | 'f' :: rest => some ('\x0c', rest)
  | 'r' :: rest => some ('\r', rest)
  | '"' :: rest => some ('"', rest)
  | '\\' :: rest => some ('\\', rest)
  | 'u' :: rest => codePoint? 4 rest
  | 'U' :: rest => codePoint? 8 rest
  | _ => none

/-- A string on one line, behind its opening quote. -/
def basic? : Nat → List Char → Option (List Char × List Char)
  | 0, _ => none
  | _ + 1, '"' :: rest => some ([], rest)
  | fuel + 1, '\\' :: rest =>
    (escape? rest).bind fun (c, rest) => (basic? fuel rest).map fun p => (c :: p.1, p.2)
  | fuel + 1, c :: rest =>
    if isPlain c then (basic? fuel rest).map fun p => (c :: p.1, p.2) else none
  | _ + 1, [] => none

/-- A string without escapes on one line, behind its opening quote. -/
def literal? : List Char → Option (List Char × List Char)
  | '\'' :: rest => some ([], rest)
  | c :: rest => if isPlain c then (literal? rest).map fun p => (c :: p.1, p.2) else none
  | [] => none

/-- The rest behind a line break that a backslash takes out of a string, with the blanks and
lines that follow it. -/
def skipBreak? (cs : List Char) : Option (List Char) :=
  (newline? (skipBlanks cs)).map fun rest => skipLines rest
where
  /-- The rest behind blanks and line ends. -/
  skipLines : List Char → List Char
    | '\r' :: '\n' :: rest => skipLines rest
    | c :: rest => if isBlank c || c = '\n' then skipLines rest else c :: rest
    | [] => []

/-- A string of many lines, behind its opening quotes. Up to two quotes may stand right before
the closing ones. -/
def basicLines? : Nat → List Char → Option (List Char × List Char)
  | 0, _ => none
  | _ + 1, '"' :: '"' :: '"' :: '"' :: '"' :: rest => some (['"', '"'], rest)
  | _ + 1, '"' :: '"' :: '"' :: '"' :: rest => some (['"'], rest)
  | _ + 1, '"' :: '"' :: '"' :: rest => some ([], rest)
  | fuel + 1, '\\' :: rest =>
    match escape? rest with
    | some (c, rest) => (basicLines? fuel rest).map fun p => (c :: p.1, p.2)
    | none => (skipBreak? rest).bind (basicLines? fuel)
  | fuel + 1, '\r' :: '\n' :: rest =>
    (basicLines? fuel rest).map fun p => ('\n' :: p.1, p.2)
  | fuel + 1, c :: rest =>
    if isPlain c || c = '\n' then (basicLines? fuel rest).map fun p => (c :: p.1, p.2) else none
  | _ + 1, [] => none

/-- A string of many lines without escapes, behind its opening quotes. -/
def literalLines? : List Char → Option (List Char × List Char)
  | '\'' :: '\'' :: '\'' :: '\'' :: '\'' :: rest => some (['\'', '\''], rest)
  | '\'' :: '\'' :: '\'' :: '\'' :: rest => some (['\''], rest)
  | '\'' :: '\'' :: '\'' :: rest => some ([], rest)
  | '\r' :: '\n' :: rest => (literalLines? rest).map fun p => ('\n' :: p.1, p.2)
  | c :: rest =>
    if isPlain c || c = '\n' then (literalLines? rest).map fun p => (c :: p.1, p.2) else none
  | [] => none

/-- The rest behind a line end, if there is one. -/
def skipNewline (cs : List Char) : List Char := (newline? cs).getD cs

/-- A string of any of the four forms. -/
def string? : List Char → Option (List Char × List Char)
  | '"' :: '"' :: '"' :: rest => basicLines? (rest.length + 1) (skipNewline rest)
  | '"' :: rest => basic? (rest.length + 1) rest
  | '\'' :: '\'' :: '\'' :: rest => literalLines? (skipNewline rest)
  | '\'' :: rest => literal? rest
  | _ => none

/-! ### Keys -/

/-- A character of a key without quotes. -/
def isKeyChar (c : Char) : Bool := c.isAlphanum || c = '_' || c = '-'

/-- One part of a key. -/
def keyPart? (cs : List Char) : Option (String × List Char) :=
  match cs with
  | '"' :: rest => (basic? (rest.length + 1) rest).map fun p => (String.ofList p.1, p.2)
  | '\'' :: rest => (literal? rest).map fun p => (String.ofList p.1, p.2)
  | _ =>
    let word := cs.takeWhile isKeyChar
    if word = [] then none else some (String.ofList word, cs.dropWhile isKeyChar)

/-- The parts of a key, with dots between them and blanks around them. -/
def keyParts? : Nat → List Char → Option (List String × List Char)
  | 0, _ => none
  | fuel + 1, cs =>
    (keyPart? (skipBlanks cs)).bind fun (part, rest) =>
      match skipBlanks rest with
      | '.' :: rest => (keyParts? fuel rest).map fun p => (part :: p.1, p.2)
      | rest => some ([part], rest)

/-- The bound on the number of parts of a key and on the depth of values. -/
def depthBound : Nat := 80

/-- A key. -/
def key? (cs : List Char) : Option (List String × List Char) :=
  (keyParts? (cs.length + 1) cs).bind fun p => if p.1.length < depthBound then some p else none

/-! ### Numbers -/

/-- Digits with single underscores between them; the digits, and the rest. -/
def digits? (isDigit : Char → Bool) : List Char → Option (List Char × List Char)
  | c :: '_' :: d :: rest =>
    if isDigit c then
      if isDigit d then (digits? isDigit (d :: rest)).map fun p => (c :: p.1, p.2) else none
    else none
  | c :: rest =>
    if isDigit c then
      match rest with
      | d :: _ =>
        if isDigit d then (digits? isDigit rest).map fun p => (c :: p.1, p.2)
        else if d = '_' then none
        else some ([c], rest)
      | [] => some ([c], [])
    else none
  | [] => none

/-- The value of a digit of any base. -/
def digitValue (c : Char) : Nat :=
  if c.isDigit then c.toNat - '0'.toNat else c.toLower.toNat - 'a'.toNat + 10

/-- The value of digits in a base. -/
def valueIn (base : Nat) (digits : List Char) : Nat :=
  digits.foldl (fun n c => n * base + digitValue c) 0

/-- A signed integer of 64 bits. -/
def int64? (n : Int) : Option Term :=
  if -Int.pow 2 63 ≤ n ∧ n < Int.pow 2 63 then some (.num (.int n)) else none

/-- A sign, if there is one. -/
def sign : List Char → Bool × List Char
  | '+' :: rest => (false, rest)
  | '-' :: rest => (true, rest)
  | cs => (false, cs)

/-- The digits of a decimal integer behind its sign: no zero in front of another digit. -/
def decimal? : List Char → Option (List Char × List Char)
  | '0' :: rest => some (['0'], rest)
  | cs => digits? Char.isDigit cs

/-- An integer in a base of its own, behind the letter of the base. -/
def based? (base : Nat) (isDigit : Char → Bool) (cs : List Char) : Option (Term × List Char) :=
  (digits? isDigit cs).bind fun (ds, rest) => (int64? (valueIn base ds)).map fun t => (t, rest)

/-- A hexadecimal digit. -/
def isHexDigit (c : Char) : Bool :=
  (Text.hexValue? c).isSome

/-- An integer. -/
def integer? : List Char → Option (Term × List Char)
  | '0' :: 'x' :: rest => based? 16 isHexDigit rest
  | '0' :: 'o' :: rest => based? 8 (fun c => '0' ≤ c && c ≤ '7') rest
  | '0' :: 'b' :: rest => based? 2 (fun c => c = '0' || c = '1') rest
  | cs =>
    let (negative, body) := sign cs
    (decimal? body).bind fun (ds, rest) =>
      let n : Int := valueIn 10 ds
      (int64? (if negative then -n else n)).map fun t => (t, rest)

/-- The number `digits · 10 ^ exponent`, far exponents cut off; an error when it is positive and
beyond the range. -/
def realOf? (negative : Bool) (digits : List Char) (exponent : Int) : Option Term :=
  let m := valueIn 10 digits
  let size : Int := exponent + digits.length
  let x :=
    if m = 0 ∨ size < -400 then some (Binary64.zero negative)
    else if size > 400 + digits.length then none
    else if 0 ≤ exponent then Binary64.ofQuotient negative (m * Nat.pow 10 exponent.toNat) 1
    else Binary64.ofQuotient negative m (Nat.pow 10 (-exponent).toNat)
  match x with
  | some x => some (.num (.real x))
  | none => if negative then some .unreadable else none

/-- The exponent of a number. -/
def exponent? : List Char → Option (Int × List Char)
  | c :: rest =>
    if c = 'e' ∨ c = 'E' then
      let (down, body) := sign rest
      (digits? Char.isDigit body).map fun (ds, rest) =>
        let n : Int := valueIn 10 ds
        (if down then -n else n, rest)
    else none
  | [] => none

/-- A number with a fraction, an exponent or both, or one that is not finite. -/
def float? (cs : List Char) : Option (Term × List Char) :=
  let (negative, body) := sign cs
  match body with
  | 'i' :: 'n' :: 'f' :: rest => some (.unreadable, rest)
  | 'n' :: 'a' :: 'n' :: rest => some (.unreadable, rest)
  | _ =>
    (decimal? body).bind fun (whole, rest) =>
      match rest with
      | '.' :: rest =>
        (digits? Char.isDigit rest).bind fun (fraction, rest) =>
          let shift : Int := -(fraction.length : Int)
          match rest with
          | c :: _ =>
            if c = 'e' ∨ c = 'E' then
              (exponent? rest).bind fun (e, rest) =>
                (realOf? negative (whole ++ fraction) (shift + e)).map fun t => (t, rest)
            else (realOf? negative (whole ++ fraction) shift).map fun t => (t, rest)
          | [] => (realOf? negative (whole ++ fraction) shift).map fun t => (t, [])
      | rest =>
        (exponent? rest).bind fun (e, rest) =>
          (realOf? negative whole e).map fun t => (t, rest)

/-! ### Dates and times -/

/-- A number of exactly `width` digits, from `low` to `high`. -/
def field? (width low high : Nat) (cs : List Char) : Option (Nat × List Char) :=
  let ds := cs.take width
  if ds.length = width ∧ ds.all Char.isDigit ∧ low ≤ valueIn 10 ds ∧ valueIn 10 ds ≤ high then
    some (valueIn 10 ds, cs.drop width)
  else none

/-- The rest behind a mark. -/
def after? (mark : Char) : List Char → Option (List Char)
  | c :: rest => if c = mark then some rest else none
  | [] => none

/-- The last day of a month. -/
def lastDay (year month : Nat) : Nat :=
  if month = 2 then
    if year % 4 = 0 ∧ (year % 100 ≠ 0 ∨ year % 400 = 0) then 29 else 28
  else if month = 4 ∨ month = 6 ∨ month = 9 ∨ month = 11 then 30
  else 31

/-- The rest behind a date. -/
def date? (cs : List Char) : Option (List Char) := do
  let (year, cs) ← field? 4 0 9999 cs
  let (month, cs) ← field? 2 1 12 (← after? '-' cs)
  let (_, cs) ← field? 2 1 (lastDay year month) (← after? '-' cs)
  return cs

/-- The rest behind a time of day. -/
def time? (cs : List Char) : Option (List Char) := do
  let (_, cs) ← field? 2 0 23 cs
  let (_, cs) ← field? 2 0 59 (← after? ':' cs)
  let (_, cs) ← field? 2 0 60 (← after? ':' cs)
  match cs with
  | '.' :: rest =>
    return if rest.takeWhile Char.isDigit = [] then cs else rest.dropWhile Char.isDigit
  | _ => return cs

/-- The rest behind an offset from UTC; none when a sign is there but no offset follows. -/
def zone? : List Char → Option (List Char)
  | 'Z' :: rest | 'z' :: rest => some rest
  | c :: rest =>
    if c = '+' ∨ c = '-' then do
      let (_, cs) ← field? 2 0 23 rest
      let (_, cs) ← field? 2 0 59 (← after? ':' cs)
      return cs
    else some (c :: rest)
  | [] => some []

/-- The rest behind a date, a time or both. -/
def moment? (cs : List Char) : Option (List Char) :=
  match date? cs with
  | none => time? cs
  | some rest =>
    match rest with
    | c :: behind =>
      if c = 'T' ∨ c = 't' ∨ c = ' ' then
        match time? behind with
        | some rest => zone? rest
        | none => some rest
      else some rest
    | [] => some []

/-- The term of a date or a time, whose text is `text`. -/
def momentTerm (text : List Char) : Term := .obj [("date-time", .str (String.ofList text))]

/-- A date, a time or a number. -/
def numeral? (cs : List Char) : Option (Term × List Char) :=
  match moment? cs with
  | some rest => some (momentTerm (cs.take (cs.length - rest.length)), rest)
  | none => (float? cs).or (integer? cs)

end CloudInventory.Toml
