import DocSchema.Yaml.Writer.Page
import Mathlib.Data.List.Basic

/-!
# What is on a page

A page collects its text in pieces. What the other modules need to know of a page is the text, the
column and the two flags, and how these change when a line is ended or filled up to a column.

## Main definitions

* `Page.chars`: the text of a page
* `Page.StartsLine`: nothing but indentation is on the line

## Main results

* `Page.startsLine_indentTo`, `Page.StartsLine.indentTo_self`: moving to a column
-/

namespace DocSchema.Yaml.Page

variable {p : Page}

/-- The characters of a page. -/
def chars (p : Page) : List Char := p.pieces.reverse.flatten

theorem text_eq (p : Page) : p.text = String.ofList p.chars := rfl

@[simp] theorem chars_write (cs : List Char) (p : Page) : (p.write cs).chars = p.chars ++ cs := by
  rw [chars, write, List.reverse_cons, List.flatten_append, List.flatten_singleton, chars]

@[simp] theorem column_write (cs : List Char) (p : Page) :
    (p.write cs).column = p.column + cs.length := rfl

@[simp] theorem atIndent_write (cs : List Char) (p : Page) :
    (p.write cs).atIndent = p.atIndent := rfl

@[simp] theorem chars_breakLine (p : Page) : p.breakLine.chars = p.chars ++ ['\n'] := by
  rw [chars, breakLine, List.reverse_cons, List.flatten_append, List.flatten_singleton, chars]

@[simp] theorem chars_inText (p : Page) : p.inText.chars = p.chars := rfl

@[simp] theorem column_inText (p : Page) : p.inText.column = p.column := rfl

theorem chars_sign (cs : List Char) (needsSpace spaceBehind keepsIndent : Bool) (p : Page) :
    (p.sign cs needsSpace spaceBehind keepsIndent).chars =
      p.chars ++ if p.afterSpace || !needsSpace then cs else ' ' :: cs := chars_write _ p

/-! ## Lines -/

/-- Nothing but indentation is on the line, up to a column. -/
structure StartsLine (p : Page) (d : Nat) : Prop where
  column : p.column = d
  afterSpace : p.afterSpace = true
  atIndent : p.atIndent = true

/-- A new line is started if something is on the line, or too much indentation. -/
theorem startsLine_indentTo {d : Nat} (h : p.atIndent = false ∨ d < p.column) :
    (p.indentTo d).StartsLine d ∧
      (p.indentTo d).chars = p.chars ++ '\n' :: List.replicate d ' ' := by
  have hbreak : (!p.atIndent || d < p.column || (p.column == d && !p.afterSpace)) = true := by
    obtain h | h := h
    · rw [h]
      rfl
    · rw [decide_eq_true h, Bool.or_true, Bool.true_or]
  rw [indentTo, hbreak, if_pos rfl]
  by_cases hd : 0 < d
  · have hlt : p.breakLine.column < d := hd
    rw [if_pos hlt]
    refine ⟨⟨?_, rfl, rfl⟩, ?_⟩
    · show p.breakLine.column + (List.replicate (d - p.breakLine.column) ' ').length = d
      rw [List.length_replicate]
      omega
    · show (p.breakLine.write _).chars = _
      rw [chars_write, chars_breakLine, List.append_assoc]
      rfl
  · obtain rfl : d = 0 := by omega
    rw [if_neg (Nat.not_lt_zero _)]
    exact ⟨⟨rfl, rfl, rfl⟩, chars_breakLine p⟩

/-- The line is filled up if it holds less indentation, with or without a sign on it. -/
theorem startsLine_indentTo_of_lt {d : Nat} (hindent : p.atIndent = true) (hlt : p.column < d) :
    (p.indentTo d).StartsLine d ∧
      (p.indentTo d).chars = p.chars ++ List.replicate (d - p.column) ' ' := by
  have hstay : (!p.atIndent || d < p.column || (p.column == d && !p.afterSpace)) = false := by
    rw [hindent, decide_eq_false (by omega), beq_eq_false_iff_ne.mpr (by omega)]
    rfl
  rw [indentTo, hstay, if_neg Bool.false_ne_true, if_pos hlt]
  refine ⟨⟨?_, rfl, hindent⟩, chars_write _ p⟩
  show p.column + (List.replicate (d - p.column) ' ').length = d
  rw [List.length_replicate]
  omega

/-- Nothing is to do at the column itself. -/
theorem StartsLine.indentTo_self {d : Nat} (h : p.StartsLine d) : p.indentTo d = p := by
  have hstay : (!p.atIndent || d < p.column || (p.column == d && !p.afterSpace)) = false := by
    rw [h.atIndent, h.afterSpace, h.column, decide_eq_false (Nat.lt_irrefl d), Bool.not_true,
      Bool.and_false]
    rfl
  rw [indentTo, hstay, if_neg Bool.false_ne_true, if_neg]
  rw [h.column]
  exact Nat.lt_irrefl d

/-! ## Contents -/

/-- The page ends with a text behind which a new line starts: either the line end is still to be
written, or it has been. -/
def Closes (p : Page) (out : List Char) : Prop :=
  p.atIndent = false ∧ p.chars = out ∨ p.StartsLine 0 ∧ p.chars = out ++ ['\n']

theorem Closes.indentTo {out : List Char} (h : p.Closes out) (d : Nat) :
    (p.indentTo d).StartsLine d ∧ (p.indentTo d).chars = out ++ '\n' :: List.replicate d ' ' := by
  obtain ⟨hindent, hchars⟩ | ⟨hstarts, hchars⟩ := h
  · obtain ⟨hline, hout⟩ := startsLine_indentTo (d := d) (.inl hindent)
    exact ⟨hline, hchars ▸ hout⟩
  · by_cases hd : 0 < d
    · obtain ⟨hline, hout⟩ := startsLine_indentTo_of_lt (d := d) hstarts.atIndent (by rwa [hstarts.column])
      refine ⟨hline, ?_⟩
      rw [hout, hchars, hstarts.column, Nat.sub_zero, List.append_assoc]
      rfl
    · obtain rfl : d = 0 := by omega
      rw [hstarts.indentTo_self]
      exact ⟨hstarts, hchars⟩

/-- A sign of a block at a column has been written. On a compact page contents may follow on the
line. -/
structure BehindSign (p : Page) (compact : Bool) (n : Nat) : Prop where
  afterSpace : p.afterSpace = false
  atIndent : p.atIndent = compact
  column : compact = true → p.column = n + 1

/-- A sign that is written where a line starts. -/
theorem StartsLine.sign {d : Nat} (h : p.StartsLine d) (c : Char) :
    (p.sign [c] true false true).BehindSign true d ∧
      (p.sign [c] true false true).chars = p.chars ++ [c] := by
  rw [Page.sign, h.afterSpace, Bool.true_or, if_pos rfl]
  refine ⟨⟨rfl, ?_, fun _ => ?_⟩, chars_write [c] p⟩
  · show (p.atIndent && true) = true
    rw [h.atIndent]
    rfl
  · exact congrArg (· + 1) h.column

/-- Behind a sign a block starts on the line, with a space in front of it. -/
theorem BehindSign.indentTo_compact {n : Nat} (h : p.BehindSign true n) :
    (p.indentTo (n + 2)).StartsLine (n + 2) ∧ (p.indentTo (n + 2)).chars = p.chars ++ [' '] := by
  have hcolumn := h.column rfl
  obtain ⟨hline, hout⟩ := startsLine_indentTo_of_lt (d := n + 2) h.atIndent (by omega)
  refine ⟨hline, ?_⟩
  have hone : n + 2 - p.column = 1 := by omega
  rw [hout, hone]
  rfl

/-- Behind the colon of a key it starts on another line. -/
theorem BehindSign.indentTo {n : Nat} (h : p.BehindSign false n) (d : Nat) :
    (p.indentTo d).StartsLine d ∧ (p.indentTo d).chars = p.chars ++ '\n' :: List.replicate d ' ' :=
  startsLine_indentTo (.inl h.atIndent)

end DocSchema.Yaml.Page
