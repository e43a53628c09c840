/-!
# Blank characters

The characters with the Unicode property White_Space.
-/

namespace LoopGuard.Text

/-- The code points of blank characters, as first and last of each range. -/
def blankRanges : List (Nat × Nat) :=
  [(0x9, 0xD), (0x20, 0x20), (0x85, 0x85), (0xA0, 0xA0), (0x1680, 0x1680), (0x2000, 0x200A),
    (0x2028, 0x2029), (0x202F, 0x202F), (0x205F, 0x205F), (0x3000, 0x3000)]

def isBlankChar (c : Char) : Bool :=
  blankRanges.any fun (first, last) => first ≤ c.toNat && c.toNat ≤ last

/-- Whether a text has no character that is not blank. -/
def isBlankText (text : String) : Bool := text.toList.all isBlankChar

end LoopGuard.Text
