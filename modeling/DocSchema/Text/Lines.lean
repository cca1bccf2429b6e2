/-!
# Lines

A text of lines, each ended by a line feed, the parts of a text between marks such as line feeds,
and the ways in which other systems end a line.

## Main definitions

* `splitAt`, `splitLines`
* `unlines`
* `plainLineEnds`: a text with a line feed for every end of a line
-/

namespace DocSchema.Text

/-- The text of several lines, each with its end. -/
def unlines (lines : List String) : String := String.join (lines.map fun line => line ++ "\n")

/-- The parts between the marks in a text; there is one more of them than marks. -/
def splitAt (mark : Char) : List Char → List (List Char)
  | [] => [[]]
  | c :: rest =>
    if c = mark then [] :: splitAt mark rest
    else
      match splitAt mark rest with
      | part :: parts => (c :: part) :: parts
      | [] => [[c]]

/-- The parts between the line feeds of a text. -/
def splitLines (cs : List Char) : List (List Char) := splitAt '\n' cs

theorem splitAt_ne_nil (mark : Char) (cs : List Char) : splitAt mark cs ≠ [] := by
  cases cs with
  | nil => simp [splitAt]
  | cons c rest =>
    simp only [splitAt]
    split
    · simp
    · split <;> simp

/-- A part that ends is the first one. -/
theorem splitAt_append {mark : Char} {part : List Char} (h : mark ∉ part) (rest : List Char) :
    splitAt mark (part ++ mark :: rest) = part :: splitAt mark rest := by
  induction part with
  | nil => simp [splitAt]
  | cons c part ih =>
    simp only [List.mem_cons, not_or] at h
    simp [splitAt, Ne.symm h.1, ih h.2]

/-- A text without marks is one part. -/
theorem splitAt_of_not_mem {mark : Char} {cs : List Char} (h : mark ∉ cs) :
    splitAt mark cs = [cs] := by
  induction cs with
  | nil => rfl
  | cons c rest ih =>
    simp only [List.mem_cons, not_or] at h
    simp [splitAt, Ne.symm h.1, ih h.2]

/-- The characters of a text with a line feed for each carriage return, and for each pair of a
carriage return and a line feed. -/
def plainLineEndChars : List Char → List Char
  | '\r' :: '\n' :: rest => '\n' :: plainLineEndChars rest
  | '\r' :: rest => '\n' :: plainLineEndChars rest
  | c :: rest => c :: plainLineEndChars rest
  | [] => []

/-- A text whose lines all end in a line feed. -/
def plainLineEnds (s : String) : String := String.ofList (plainLineEndChars s.toList)

/-- A text without carriage returns is not changed. -/
theorem plainLineEndChars_of_not_mem {cs : List Char} (h : '\r' ∉ cs) :
    plainLineEndChars cs = cs := by
  induction cs with
  | nil => rfl
  | cons c rest ih =>
    simp only [List.mem_cons, not_or] at h
    have hc : c ≠ '\r' := Ne.symm h.1
    simp [plainLineEndChars, hc, ih h.2]

end DocSchema.Text
