/-!
# Blank characters

Words on a line are separated by blank characters, and a line that holds nothing else
is taken for empty. Blank are the characters that Unicode counts as white space by
category or by direction, together with the four separators U+001C to U+001F; the
zero-width characters are not blank.

## Main definitions

* `isBlank` — the character separates words
* `trim` — a text without the blank characters at its two ends
-/

namespace Pipework.Text

/-- A blank character separates words. -/
def isBlank (c : Char) : Bool :=
  let n := c.toNat
  (0x09 ≤ n && n ≤ 0x0D) || (0x1C ≤ n && n ≤ 0x20) || n == 0x85 || n == 0xA0 || n == 0x1680 ||
    (0x2000 ≤ n && n ≤ 0x200A) || n == 0x2028 || n == 0x2029 || n == 0x202F || n == 0x205F ||
    n == 0x3000

/-- The text without the blank characters at its two ends. -/
def trim (s : String) : String :=
  .ofList ((s.toList.dropWhile isBlank).reverse.dropWhile isBlank).reverse

end Pipework.Text
