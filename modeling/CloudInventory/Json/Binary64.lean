/-!
Finite binary64 numbers in exact integer arithmetic: rounding a quotient to the nearest one
(`ofQuotient`), the product and quotient of two, and the shortest decimal that still reads back
(`shortest`), which is the text `render` writes.
-/

namespace CloudInventory

/-- A finite binary64 number, `± mantissa · 2 ^ exponent`. The mantissa has 53 bits unless the
exponent is the least one, `-1074`. -/
structure Binary64 where
  negative : Bool
  mantissa : Nat
  exponent : Int
  deriving DecidableEq, Repr

namespace Binary64

/-- Zero with the given sign. -/
def zero (negative : Bool) : Binary64 := ⟨negative, 0, -1074⟩

/-- `n / d` rounded to the nearest integer, a tie to the even one. -/
def roundToEven (n d : Nat) : Nat :=
  let q := n / d
  let r := n % d
  if 2 * r < d then q else if d < 2 * r then q + 1 else q + q % 2

/-- `n / d / 2 ^ e` as a quotient of naturals. -/
def scaled (n d : Nat) (e : Int) : Nat × Nat :=
  if 0 ≤ e then (n, d * Nat.pow 2 e.toNat) else (n * Nat.pow 2 (-e).toNat, d)

/-- The binary64 number nearest to `n / d`; none when that is beyond the range. -/
def ofQuotient (negative : Bool) (n d : Nat) : Option Binary64 :=
  if n = 0 then some (zero negative)
  else
    let low : Int := (n.log2 : Int) - (d.log2 : Int) - 53
    let s := scaled n d low
    let fitted := if Nat.pow 2 53 ≤ s.1 / s.2 then low + 1 else low
    let e := max fitted (-1074)
    let s := scaled n d e
    let m := roundToEven s.1 s.2
    let r : Binary64 :=
      if m = Nat.pow 2 53 then ⟨negative, Nat.pow 2 52, e + 1⟩ else ⟨negative, m, e⟩
    if 971 < r.exponent then none else some r

/-- The size of `x`, without its sign, as a quotient of naturals. -/
def quotient (x : Binary64) : Nat × Nat :=
  if 0 ≤ x.exponent then (x.mantissa * Nat.pow 2 x.exponent.toNat, 1)
  else (x.mantissa, Nat.pow 2 (-x.exponent).toNat)

/-- The rounded product; none when it is beyond the range. -/
def mul (x y : Binary64) : Option Binary64 :=
  let a := x.quotient
  let b := y.quotient
  ofQuotient (x.negative != y.negative) (a.1 * b.1) (a.2 * b.2)

/-- The rounded quotient by a number other than zero; none when it is beyond the range. -/
def div (x y : Binary64) : Option Binary64 :=
  let a := x.quotient
  let b := y.quotient
  ofQuotient (x.negative != y.negative) (a.1 * b.2) (a.2 * b.1)

/-! ### Shortest decimal text -/

/-- `10 ^ k` as a quotient of naturals. -/
def tenPower (k : Int) : Nat × Nat :=
  if 0 ≤ k then (Nat.pow 10 k.toNat, 1) else (1, Nat.pow 10 (-k).toNat)

/-- `10 ^ k` is at most the size of `x`. -/
def reaches (x : Binary64) (k : Int) : Bool :=
  let v := x.quotient
  let t := tenPower k
  decide (t.1 * v.2 ≤ v.1 * t.2)

/-- The greatest `k` for which `10 ^ k` is at most the size of `x`, which is not zero. -/
def magnitude (x : Binary64) : Int :=
  let guess := ((x.mantissa.log2 : Int) + x.exponent) * 30103 / 100000
  if x.reaches (guess + 1) then guess + 1 else if x.reaches guess then guess else guess - 1

/-- `c · 10 ^ k` rounds to `x`: it lies between the midpoints to the neighbours of `x`, which
belong to `x` exactly when its mantissa is even. -/
def roundsTo (x : Binary64) (c : Nat) (k : Int) : Bool :=
  let below := if x.mantissa = Nat.pow 2 52 ∧ -1074 < x.exponent then 1 else 2
  let unit := quotient { x with mantissa := 1 }
  let t := tenPower k
  let value := 4 * c * t.1 * unit.2
  let least := (4 * x.mantissa - below) * unit.1 * t.2
  let greatest := (4 * x.mantissa + 2) * unit.1 * t.2
  if x.mantissa % 2 = 0 then decide (least ≤ value) && decide (value ≤ greatest)
  else decide (least < value) && decide (value < greatest)

/-- The decimal nearest to `x` on the grid of `10 ^ k` that rounds to `x`. -/
def onGrid (x : Binary64) (k : Int) : Option Nat :=
  let v := x.quotient
  let t := tenPower k
  let num := v.1 * t.2
  let den := v.2 * t.1
  let q := num / den
  let nearer := roundToEven num den
  let other := if nearer = q then q + 1 else q
  if x.roundsTo nearer k then some nearer
  else if x.roundsTo other k then some other
  else none

/-- Digits and power of ten of the shortest decimal that rounds to `x`, among the grids of
`n + 1`, `n + 2`, … digits; `fuel` is how many grids are left. -/
def shortestFrom (x : Binary64) (top : Int) (n : Nat) : Nat → Nat × Int
  | 0 => (0, 0)
  | fuel + 1 =>
    match x.onGrid (top - n) with
    | some c => (c, top - n)
    | none => shortestFrom x top (n + 1) fuel

/-- The shortest decimal `c · 10 ^ k` that rounds to `x`; seventeen digits always do. -/
def shortest (x : Binary64) : Nat × Int :=
  if x.mantissa = 0 then (0, 0) else shortestFrom x x.magnitude 0 17

/-- The trailing zeros of `c` moved into the power of ten. -/
def strip : Nat → Nat → Int → Nat × Int
  | 0, c, k => (c, k)
  | fuel + 1, c, k => if c ≠ 0 ∧ c % 10 = 0 then strip fuel (c / 10) (k + 1) else (c, k)

/-- Decimal text: positional while the point stands within the first sixteen places or at most
five places before the digits, with at least one digit after it, and with an exponent beyond. -/
def render (x : Binary64) : String :=
  let sign := if x.negative then "-" else ""
  if x.mantissa = 0 then sign ++ "0.0"
  else
    let short := x.shortest
    let (c, k) := strip 20 short.1 short.2
    let digits := (toString c).toList
    let point : Int := digits.length + k
    let zeros (n : Int) : List Char := List.replicate n.toNat '0'
    let body : List Char :=
      if 0 ≤ k ∧ point ≤ 16 then digits ++ zeros k ++ ['.', '0']
      else if 0 < point ∧ point ≤ 16 then
        digits.take point.toNat ++ '.' :: digits.drop point.toNat
      else if -5 < point ∧ point ≤ 0 then '0' :: '.' :: zeros (-point) ++ digits
      else
        let power := (toString (point - 1)).toList
        match digits with
        | [d] => d :: 'e' :: power
        | d :: ds => d :: '.' :: ds ++ 'e' :: power
        | [] => []
    sign ++ String.ofList body

end Binary64

end CloudInventory
