/-!
Blank characters: those with the Unicode property White_Space. `trim` removes them at both ends.
-/

namespace CloudInventory.Text

/-- The code points with the property White_Space, as closed ranges in ascending order. -/
def blankRanges : List (Nat × Nat) :=
  [(0x9, 0xD), (0x20, 0x20), (0x85, 0x85), (0xA0, 0xA0), (0x1680, 0x1680), (0x2000, 0x200A),
    (0x2028, 0x2029), (0x202F, 0x202F), (0x205F, 0x205F), (0x3000, 0x3000)]

/-- `c` has the property White_Space. -/
def isBlank (c : Char) : Bool :=
  blankRanges.any fun r => r.1 ≤ c.toNat && c.toNat ≤ r.2

/-- `cs` without the blanks in front. -/
def trimStartOf (cs : List Char) : List Char := cs.dropWhile isBlank

/-- `s` without the blanks at its two ends. -/
def trim (s : String) : String :=
  String.ofList (trimStartOf (trimStartOf s.toList).reverse).reverse

/-- `s` holds a blank. -/
def hasBlank (s : String) : Bool := s.toList.any isBlank

end CloudInventory.Text
