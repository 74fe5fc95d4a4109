/-!
# Blank — white space of any script

`isBlank` is the Unicode property White_Space.  It is wider than the blanks of ASCII: a line separator, a no-break
space and an ideographic space are blank, while a zero-width space and a byte-order mark are not.
-/
namespace Intake

/-- The characters with the Unicode property White_Space. -/
def isBlank (c : Char) : Bool :=
  let n := c.toNat
  (9 ≤ n && n ≤ 13) || n == 0x20 || n == 0x85 || n == 0xA0 || n == 0x1680 || (0x2000 ≤ n && n ≤ 0x200A) ||
    n == 0x2028 || n == 0x2029 || n == 0x202F || n == 0x205F || n == 0x3000

def trimChars (s : List Char) : List Char :=
  ((s.dropWhile isBlank).reverse.dropWhile isBlank).reverse

def trim (s : String) : String :=
  String.ofList (trimChars s.toList)

/-- A text of blanks only, or of nothing. -/
def isBlankText (s : String) : Bool :=
  s.toList.all isBlank

/-- ASCII capitals made small; every other character stays. -/
def lowerAscii (s : String) : String :=
  String.ofList (s.toList.map Char.toLower)

end Intake
