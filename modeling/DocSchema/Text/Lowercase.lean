import DocSchema.Text.LetterCase

/-!
# Lower case

The lower case form of a text, by the full mapping of the character database: every letter moves
by the table of `DocSchema.Text.LetterCase`, and two letters have a rule of their own.

* The capital I with a dot becomes a small i followed by a combining dot.
* The capital sigma becomes the final sigma at the end of a word and the medial one elsewhere. A
  word ends there if a cased letter stands before and none behind, where case-ignorable
  characters are looked through on both sides.
-/

namespace DocSchema.Text

/-- The code point of the lower case form of a letter with a form of one letter. -/
def lowerCodePoint (n : Nat) : Nat :=
  if n < 128 then
    if 65 ≤ n && n ≤ 90 then n + 32 else n
  else
    match lowercaseRuns.find? (·.holds n) with
    | some run => (n + run.shift : Int).toNat
    | none => n

/-- The lower case form of a letter other than the capital sigma. -/
def lowerLetter (c : Char) : List Char :=
  if c.toNat = 0x130 then [Char.ofNat 0x69, Char.ofNat 0x307]
  else [Char.ofNat (lowerCodePoint c.toNat)]

/-- Whether the first character that is not looked through is a cased letter. -/
def startsCased (cs : List Char) : Bool :=
  ((cs.dropWhile isCaseIgnorable).head?.map isCased).getD false

/-- Lower case from some place in a text on, where `afterCased` says whether the last character
before that place, those looked through apart, is a cased letter. -/
def lowerFrom (afterCased : Bool) : List Char → List Char
  | [] => []
  | c :: rest =>
    let here :=
      if c.toNat = 0x3A3 then
        [Char.ofNat (if afterCased && !startsCased rest then 0x3C2 else 0x3C3)]
      else lowerLetter c
    here ++ lowerFrom (if isCaseIgnorable c then afterCased else isCased c) rest

/-- The lower case form of a text. -/
def lower (s : String) : String := String.ofList (lowerFrom false s.toList)

end DocSchema.Text
