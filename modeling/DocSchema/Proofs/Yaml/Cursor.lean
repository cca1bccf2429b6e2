import DocSchema.Yaml.Cursor
import Mathlib.Data.List.Basic

/-!
# Moving through a text

A cursor that moves on drops characters from what follows it and counts them. As long as no line
ends among them it stays on its line, and it moves by as many columns.

## Main definitions

* `IsLine`: characters without the end of a line

## Main results

* `Cursor.rest_skip`, `Cursor.index_skip`, `Cursor.line_skip`, `Cursor.column_skip`
* `Cursor.skipWhile_eq`: skipping the characters of a kind
-/

namespace DocSchema.Yaml

/-- No character ends a line. -/
def IsLine (cs : List Char) : Prop := ∀ c ∈ cs, isBreak c = false

theorem isLine_nil : IsLine [] := nofun

theorem isLine_cons {c : Char} {cs : List Char} :
    IsLine (c :: cs) ↔ isBreak c = false ∧ IsLine cs := List.forall_mem_cons

theorem isLine_append {cs ds : List Char} : IsLine (cs ++ ds) ↔ IsLine cs ∧ IsLine ds :=
  List.forall_mem_append

theorem isLine_replicate {n : Nat} {c : Char} (h : isBreak c = false) :
    IsLine (List.replicate n c) := by
  intro d hd
  rw [List.eq_of_mem_replicate hd]
  exact h

namespace Cursor

variable {c : Cursor} {ch : Char} {cs tail : List Char}

/-! ## One step -/

theorem rest_next (c : Cursor) : c.next.rest = c.rest.tail := by
  rw [next]
  split
  · next h => rw [h, List.tail_nil]
  · next h =>
    rw [h, List.tail_cons]
    split
    · rfl
    · split <;> rfl

theorem rest_next_eq (h : c.rest = ch :: tail) : c.next.rest = tail := by
  rw [rest_next, h, List.tail_cons]

theorem peek_eq (h : c.rest = ch :: tail) : c.peek = some ch := by
  rw [peek, h, List.head?_cons]

theorem peekAt_one (h : c.rest = ch :: tail) : c.peekAt 1 = tail.head? := by
  rw [peekAt, h, List.getElem?_cons_succ, List.head?_eq_getElem?]

theorem index_next (h : c.rest ≠ []) : c.next.index = c.index + 1 := by
  rw [next]
  split
  · next hnil => exact absurd hnil h
  · split
    · rfl
    · split <;> rfl

theorem line_next (h : c.rest = ch :: tail) (hch : isBreak ch = false) :
    c.next.line = c.line := by
  have hends : endsLineBefore ch tail = false := by rw [endsLineBefore, hch, Bool.false_and]
  rw [next, h]
  dsimp only
  rw [hends, if_neg Bool.false_ne_true]
  split <;> rfl

theorem column_next (h : c.rest = ch :: tail) (hch : isBreak ch = false)
    (hmark : ch.toNat ≠ 0xFEFF) : c.next.column = c.column + 1 := by
  have hends : endsLineBefore ch tail = false := by rw [endsLineBefore, hch, Bool.false_and]
  rw [next, h]
  dsimp only
  rw [hends, if_neg Bool.false_ne_true, if_neg hmark]

/-! ## Several steps -/

theorem skip_add (m n : Nat) (c : Cursor) : c.skip (m + n) = (c.skip m).skip n := by
  induction m generalizing c with
  | zero => rw [Nat.zero_add, skip]
  | succ m ih =>
    rw [Nat.succ_add, skip, skip]
    exact ih c.next

theorem skip_succ (n : Nat) (c : Cursor) : c.skip (n + 1) = c.next.skip n := rfl

theorem rest_skip (n : Nat) (c : Cursor) : (c.skip n).rest = c.rest.drop n := by
  induction n generalizing c with
  | zero => rfl
  | succ n ih => rw [skip, ih, rest_next, List.drop_tail]

theorem rest_skip_append (h : c.rest = cs ++ tail) : (c.skip cs.length).rest = tail := by
  rw [rest_skip, h, List.drop_left]

theorem index_skip (h : c.rest = cs ++ tail) :
    (c.skip cs.length).index = c.index + cs.length := by
  induction cs generalizing c with
  | nil => rfl
  | cons ch cs ih =>
    have hnext : c.next.rest = cs ++ tail := rest_next_eq h
    have hne : c.rest ≠ [] := by
      rw [h]
      exact List.cons_ne_nil _ _
    rw [List.length_cons, skip_succ, ih hnext, index_next hne]
    omega

theorem line_skip (h : c.rest = cs ++ tail) (hline : IsLine cs) :
    (c.skip cs.length).line = c.line := by
  induction cs generalizing c with
  | nil => rfl
  | cons ch cs ih =>
    have hnext : c.next.rest = cs ++ tail := rest_next_eq h
    rw [isLine_cons] at hline
    rw [List.length_cons, skip_succ, ih hnext hline.2, line_next h hline.1]

theorem column_skip (h : c.rest = cs ++ tail) (hline : IsLine cs)
    (hmark : ∀ ch ∈ cs, ch.toNat ≠ 0xFEFF) :
    (c.skip cs.length).column = c.column + cs.length := by
  induction cs generalizing c with
  | nil => rfl
  | cons ch cs ih =>
    have hnext : c.next.rest = cs ++ tail := rest_next_eq h
    rw [isLine_cons] at hline
    rw [List.forall_mem_cons] at hmark
    rw [List.length_cons, skip_succ, ih hnext hline.2 hmark.2, column_next h hline.1 hmark.1]
    omega

/-! ## Lines -/

theorem line_le_next (c : Cursor) : c.line ≤ c.next.line := by
  rw [next]
  split
  · exact Nat.le_refl _
  · split
    · exact Nat.le_succ _
    · split <;> exact Nat.le_refl _

theorem line_le_skip (n : Nat) (c : Cursor) : c.line ≤ (c.skip n).line := by
  induction n generalizing c with
  | zero => exact Nat.le_refl _
  | succ n ih => exact Nat.le_trans c.line_le_next (ih c.next)

theorem column_skip_spaces {n : Nat} (h : c.rest = List.replicate n ' ' ++ tail) :
    (c.skip n).column = c.column + n := by
  have hcolumn := column_skip h (isLine_replicate rfl) fun ch hch => by
    rw [List.eq_of_mem_replicate hch]
    decide
  rwa [List.length_replicate] at hcolumn

/-- Behind a line feed and its indentation. -/
theorem skip_line {d : Nat} (h : c.rest = cs ++ '\n' :: (List.replicate d ' ' ++ tail)) :
    (c.skip (cs.length + 1 + d)).rest = tail ∧ (c.skip (cs.length + 1 + d)).column = d ∧
      c.line < (c.skip (cs.length + 1 + d)).line := by
  have hfeed := rest_skip_append h
  generalize hmiddle : c.skip cs.length = m at hfeed
  have hnext : m.next.rest = List.replicate d ' ' ++ tail ∧ m.next.column = 0 ∧
      m.next.line = m.line + 1 := by
    rw [next, hfeed]
    exact ⟨rfl, rfl, rfl⟩
  have hskip : c.skip (cs.length + 1 + d) = m.next.skip d := by
    rw [Nat.add_assoc, Nat.add_comm 1 d, skip_add, hmiddle, skip_succ]
  have hrest := rest_skip_append hnext.1
  rw [List.length_replicate] at hrest
  rw [hskip]
  refine ⟨hrest, ?_, ?_⟩
  · rw [column_skip_spaces hnext.1, hnext.2.1, Nat.zero_add]
  · calc c.line ≤ m.line := hmiddle ▸ line_le_skip cs.length c
      _ < m.next.line := hnext.2.2 ▸ Nat.lt_succ_self _
      _ ≤ _ := line_le_skip d m.next

/-! ## Characters of a kind -/

theorem takeWhile_append_of_forall {kind : Char → Bool} (hcs : ∀ ch ∈ cs, kind ch = true)
    (htail : ∀ ch ∈ tail.head?, kind ch = false) :
    (cs ++ tail).takeWhile kind = cs := by
  rw [List.takeWhile_append_of_pos hcs]
  cases tail with
  | nil => rw [List.takeWhile_nil, List.append_nil]
  | cons ch tail =>
    have hch : kind ch = false := htail ch rfl
    rw [List.takeWhile_cons_of_neg (by rw [hch]; exact Bool.false_ne_true), List.append_nil]

theorem takeWhile_eq {kind : Char → Bool} (h : c.rest = cs ++ tail)
    (hcs : ∀ ch ∈ cs, kind ch = true) (htail : ∀ ch ∈ tail.head?, kind ch = false) :
    c.takeWhile kind = cs := by
  rw [takeWhile, h, takeWhile_append_of_forall hcs htail]

theorem skipWhile_eq {kind : Char → Bool} (h : c.rest = cs ++ tail)
    (hcs : ∀ ch ∈ cs, kind ch = true) (htail : ∀ ch ∈ tail.head?, kind ch = false) :
    c.skipWhile kind = c.skip cs.length := by
  rw [skipWhile, h, takeWhile_append_of_forall hcs htail]

/-! ## Ends of lines -/

theorem lineBreak?_eq_none (h : ∀ ch ∈ c.rest.head?, isBreak ch = false) :
    c.lineBreak? = none := by
  rw [lineBreak?]
  split
  · next hrest =>
    rw [hrest] at h
    exact absurd (h '\r' rfl) (by decide)
  · next hrest =>
    rw [hrest] at h
    rw [if_neg (by rw [h _ rfl]; exact Bool.false_ne_true)]
  · rfl

theorem lineBreak?_newline (h : c.rest = '\n' :: tail) : c.lineBreak? = some ('\n', c.next) := by
  rw [lineBreak?, h]
  rfl

/-- A carriage return that is not part of a pair ends a line by itself. -/
theorem lineBreak?_return (h : c.rest = '\r' :: tail) (hne : tail.head? ≠ some '\n') :
    c.lineBreak? = some ('\n', c.next) := by
  rw [lineBreak?, h]
  split
  · next hpair =>
    rw [(List.cons.inj hpair).2] at hne
    exact absurd rfl hne
  · next hsingle =>
    obtain rfl := (List.cons.inj hsingle).1
    rfl
  · next hnil => cases hnil

theorem lineBreak?_pair (h : c.rest = '\r' :: '\n' :: tail) :
    c.lineBreak? = some ('\n', c.next.next) := by
  rw [lineBreak?, h]
  rfl

end Cursor

end DocSchema.Yaml
