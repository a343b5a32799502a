import CloudInventory.Json.Basic

/-!
Reading the text of a JSON number. Digits are collected while they fit 64 bits; the ones after
that only move the exponent. A number without point and exponent that fits is an integer. Any
other is the collected digits, rounded to binary64, times or divided by a power of ten, rounded
once more; so the last bit may differ from the nearest one. A number beyond the range has no
value, but its text is still well formed.
-/

namespace CloudInventory

namespace Number

/-- The value of a decimal digit. -/
def digitValue (c : Char) : Nat := c.toNat - '0'.toNat

/-- Digits collected so far: their value, how many came after the value stopped fitting 64 bits,
and how many were taken in. -/
structure Collected where
  value : Nat
  skipped : Nat
  taken : Nat

/-- Collect `digits` behind `start`; the first one that would make the value too large and all
after it are skipped. -/
def collect (start : Nat) : List Char → Collected
  | [] => ⟨start, 0, 0⟩
  | c :: cs =>
    let next := start * 10 + digitValue c
    if next < Nat.pow 2 64 then
      let r := collect next cs
      { r with taken := r.taken + 1 }
    else ⟨start, cs.length + 1, 0⟩

/-- `10 ^ k` as a binary64 number, for `k ≤ 308`. -/
def tenTo (k : Nat) : Binary64 := (Binary64.ofQuotient false (Nat.pow 10 k) 1).getD (.zero false)

/-- `x · 10 ^ e`, dividing by `10 ^ 308` as often as needed first. After four divisions every
64-bit value has become zero. -/
def scale (x : Binary64) (e : Int) : Nat → Option Binary64
  | 0 => some (.zero x.negative)
  | fuel + 1 =>
    if e.natAbs ≤ 308 then
      if 0 ≤ e then x.mul (tenTo e.natAbs) else x.div (tenTo e.natAbs)
    else if x.mantissa = 0 then some x
    else if 0 ≤ e then none
    else (x.div (tenTo 308)).bind fun y => scale y (e + 308) fuel

/-- `significand · 10 ^ e` with a sign; none beyond the range. -/
def ofParts (negative : Bool) (significand : Nat) (e : Int) : Option Number :=
  (Binary64.ofQuotient false significand 1).bind fun x =>
    (scale x e 5).map fun y => .real { y with negative := negative }

/-- A number without point and exponent whose digits fit 64 bits. Below `-2 ^ 63`, and for a
negative zero, it is not an integer. -/
def ofInteger (negative : Bool) (n : Nat) : Option Number :=
  if ¬ negative then some (.int n)
  else if 0 < n ∧ n ≤ Nat.pow 2 63 then some (.int (-n))
  else ofParts true n 0

/-- The three parts of a number's text: digits before the point, after it, and the exponent with
its sign. -/
structure Parts where
  negative : Bool
  whole : List Char
  fraction : Option (List Char)
  exponent : Option (Bool × List Char)

/-- The exponent of a number's text, which ends it. -/
def exponentOf? : List Char → Option (Option (Bool × List Char))
  | [] => some none
  | c :: cs =>
    if c = 'e' ∨ c = 'E' then
      let (down, digits) :=
        match cs with
        | '-' :: rest => (true, rest)
        | '+' :: rest => (false, rest)
        | rest => (false, rest)
      if digits ≠ [] ∧ digits.all Char.isDigit then some (some (down, digits)) else none
    else none

/-- The parts of a well-formed number: no leading zero, and a digit on both sides of the point. -/
def parts? (text : List Char) : Option Parts :=
  let (negative, body) :=
    match text with
    | '-' :: rest => (true, rest)
    | rest => (false, rest)
  let whole := body.takeWhile Char.isDigit
  let rest := body.dropWhile Char.isDigit
  if whole = [] ∨ (whole.head? = some '0' ∧ whole.length ≠ 1) then none
  else
    match rest with
    | '.' :: rest =>
      let fraction := rest.takeWhile Char.isDigit
      if fraction = [] then none
      else (exponentOf? (rest.dropWhile Char.isDigit)).map fun e =>
        ⟨negative, whole, some fraction, e⟩
    | rest => (exponentOf? rest).map fun e => ⟨negative, whole, none, e⟩

/-- The value of an exponent's digits, with its sign; none when it does not fit 31 bits. -/
def exponentValue (down : Bool) (digits : List Char) : Option Int :=
  let n := digits.foldl (fun n c => min (n * 10 + digitValue c) (Nat.pow 2 31)) 0
  if Nat.pow 2 31 ≤ n then none else some (if down then -(n : Int) else n)

/-- The value of a number's parts; none beyond the range. -/
def ofNumberParts (p : Parts) : Option Number :=
  let whole := collect 0 p.whole
  match p.fraction, p.exponent with
  | none, none =>
    if whole.skipped = 0 then ofInteger p.negative whole.value
    else ofParts p.negative whole.value whole.skipped
  | fraction, exponent =>
    let all := collect whole.value (fraction.getD [])
    let e : Int := whole.skipped - all.taken
    match exponent with
    | none => ofParts p.negative all.value e
    | some (down, digits) =>
      match exponentValue down digits with
      | some n => ofParts p.negative all.value (e + n)
      | none =>
        if all.value ≠ 0 ∧ ¬ down then none else some (.real (.zero p.negative))

/-- What a number's text says: nothing when it is not well formed, and `some none` when it is
but its value is beyond the range. -/
def read? (text : List Char) : Option (Option Number) := (parts? text).map ofNumberParts

/-- The text of a number. -/
def render : Number → String
  | int n => toString n
  | real x => x.render

end Number

end CloudInventory
