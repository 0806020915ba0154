/-!
# Blank characters

The characters of the Unicode property `White_Space`, and the removal of blanks from the ends of
a text. A text is blank when nothing remains.
-/

namespace SwarmUpkeep

/-- The property `White_Space`: tab to carriage return, space, next line, no-break space, and the
spaces and separators of the general punctuation and ideographic blocks. -/
def isBlankChar (c : Char) : Bool :=
  let n := c.toNat
  (0x9 ≤ n && n ≤ 0xD) || n == 0x20 || n == 0x85 || n == 0xA0 || n == 0x1680 ||
    (0x2000 ≤ n && n ≤ 0x200A) || n == 0x2028 || n == 0x2029 || n == 0x202F || n == 0x205F ||
    n == 0x3000

/-- A list of characters without the blanks at its front. -/
def dropBlanks (cs : List Char) : List Char :=
  cs.dropWhile isBlankChar

/-- A text without the blanks at its two ends. -/
def trimBlanks (s : String) : String :=
  String.ofList (dropBlanks (dropBlanks s.toList).reverse).reverse

def isBlank (s : String) : Bool :=
  s.toList.all isBlankChar

end SwarmUpkeep
