/-!
# Blank characters

The characters that count as white space when a text is trimmed or tested for emptiness: the
Unicode white space, and the four separators U+001C to U+001F.

## Main definitions

* `isBlankChar`: the class
* `isBlank`: a text without any other character
* `strip`: a text without the blank characters at its ends
-/

namespace DocSchema.Text

/-- White space in the sense of trimming. -/
def isBlankChar (c : Char) : Bool :=
  let n := c.toNat
  (9 ≤ n && n ≤ 13) || (28 ≤ n && n ≤ 32) || n == 0x85 || n == 0xA0 || n == 0x1680
    || (0x2000 ≤ n && n ≤ 0x200A) || n == 0x2028 || n == 0x2029 || n == 0x202F || n == 0x205F
    || n == 0x3000

/-- Whether a text holds no character but blank ones. -/
def isBlank (s : String) : Bool := s.toList.all isBlankChar

/-- A list of characters without the blank ones at its ends. -/
def stripChars (cs : List Char) : List Char :=
  (cs.dropWhile isBlankChar).reverse.dropWhile isBlankChar |>.reverse

/-- A text without the blank characters at its ends. -/
def strip (s : String) : String := String.ofList (stripChars s.toList)

end DocSchema.Text
