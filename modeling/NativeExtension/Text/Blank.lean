import NativeExtension.Text.Fields

/-!
# NativeExtension.Text.Blank

**Blank characters, trimming and lines.** `isBlank` is the Unicode property
White_Space, which is wider than the ASCII blanks that `Char.isWhitespace` knows.
-/

namespace NativeExtension.Text

/-- The Unicode property White_Space. -/
def isBlank (c : Char) : Bool :=
  let n := c.toNat
  (0x09 ≤ n && n ≤ 0x0D) || n == 0x20 || n == 0x85 || n == 0xA0 || n == 0x1680 ||
  (0x2000 ≤ n && n ≤ 0x200A) || n == 0x2028 || n == 0x2029 || n == 0x202F ||
  n == 0x205F || n == 0x3000

/-- The text without the blanks at its two ends. -/
def trim (text : List Char) : List Char :=
  ((text.dropWhile isBlank).reverse.dropWhile isBlank).reverse

/-- The first line that is not blank, without the blanks around it. -/
def firstLine? (text : List Char) : Option (List Char) :=
  ((fields '\n' text).map trim).find? (· ≠ [])

/-- Lower-case form of the ASCII letters; every other character stays. -/
def lowerAscii (text : List Char) : List Char :=
  text.map Char.toLower

end NativeExtension.Text
