/-!
# Terminal control sequences

An escape character, a bracket, numbers and a letter control a terminal. They are left out of what
is printed elsewhere.

## Main definitions

* `withoutControls`
-/

namespace DocSchema.Text

/-- The character that opens a control sequence. -/
def escapeChar : Char := '\x1b'

/-- Whether a character may stand between the bracket and the letter of a control sequence. -/
def isControlParameter (c : Char) : Bool := c.isDigit || c == ';' || c == '?'

/-- The characters of a text without control sequences. A sequence that may have begun is held
until it is complete or broken off. -/
def dropControls (held : List Char) : List Char → List Char
  | [] => held
  | c :: rest =>
    match held with
    | [] => if c = escapeChar then dropControls [c] rest else c :: dropControls [] rest
    | [_] =>
      if c = '[' then dropControls (held ++ [c]) rest
      else if c = escapeChar then held ++ dropControls [c] rest
      else held ++ c :: dropControls [] rest
    | _ =>
      if isControlParameter c then dropControls (held ++ [c]) rest
      else if c.isAlpha then dropControls [] rest
      else if c = escapeChar then held ++ dropControls [c] rest
      else held ++ c :: dropControls [] rest

/-- A text without control sequences. -/
def withoutControls (s : String) : String := String.ofList (dropControls [] s.toList)

/-- A text without escape characters has no control sequences. -/
theorem dropControls_of_not_mem {cs : List Char} (h : escapeChar ∉ cs) :
    dropControls [] cs = cs := by
  induction cs with
  | nil => rfl
  | cons c rest ih =>
    simp only [List.mem_cons, not_or] at h
    simp [dropControls, Ne.symm h.1, ih h.2]

end DocSchema.Text
