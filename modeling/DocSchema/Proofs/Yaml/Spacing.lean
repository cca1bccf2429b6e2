import DocSchema.Proofs.Yaml.Cursor
import DocSchema.Yaml.Token.Lexer

/-!
# Skipping to the next token

Between two tokens there may be spaces and ends of lines, which the lexer skips. A *gap* is such
spacing; it holds no tabs, in front of which the lexer stops.

## Main definitions

* `IsGap`, `StartsToken`

## Main results

* `Lexer.exists_skipToToken`: the lexer skips a gap
-/

namespace DocSchema.Yaml

/-- Spaces and ends of lines. -/
def IsGap (cs : List Char) : Prop := ∀ c ∈ cs, c ∈ [' ', '\n', '\r']

instance : DecidablePred IsGap := fun cs => List.decidableBAll (· ∈ [' ', '\n', '\r']) cs

/-- What follows is a token or the end of the text: no spacing and no comment. -/
def StartsToken (cs : List Char) : Prop :=
  ∀ c ∈ cs.head?, c ≠ ' ' ∧ c ≠ '#' ∧ isBreak c = false

theorem isGap_nil : IsGap [] := nofun

theorem startsToken_nil : StartsToken [] := nofun

/-- A gap is a run of spaces, or has an end of a line behind such a run. -/
theorem IsGap.cases {gap : List Char} (h : IsGap gap) :
    ∃ n rest, gap = List.replicate n ' ' ++ rest ∧
      (rest = [] ∨ ∃ ch more, rest = ch :: more ∧ (ch = '\n' ∨ ch = '\r') ∧ IsGap more) := by
  induction gap with
  | nil => exact ⟨0, [], rfl, .inl rfl⟩
  | cons c gap ih =>
    have hgap : IsGap gap := fun d hd => h d (List.mem_cons_of_mem _ hd)
    have hc : c = ' ' ∨ c = '\n' ∨ c = '\r' := by simpa using h c List.mem_cons_self
    obtain rfl | hc := hc
    · obtain ⟨n, rest, rfl, hrest⟩ := ih hgap
      exact ⟨n + 1, rest, rfl, hrest⟩
    · exact ⟨0, c :: gap, rfl, .inr ⟨c, gap, rfl, hc, hgap⟩⟩

namespace Cursor

variable {c : Cursor} {tail : List Char}

theorem skipSpaces_eq {n : Nat} (h : c.rest = List.replicate n ' ' ++ tail)
    (htail : ∀ ch ∈ tail.head?, ch ≠ ' ') : c.skipSpaces = c.skip n := by
  have hrun := @skipWhile_eq c _ tail (· == ' ') h
    (fun ch hch => by rw [List.eq_of_mem_replicate hch]; rfl)
    (fun ch hch => beq_eq_false_iff_ne.mpr (htail ch hch))
  rw [List.length_replicate] at hrun
  exact hrun

theorem skipComment_eq (h : ∀ ch ∈ c.rest.head?, ch ≠ '#') : c.skipComment = c := by
  rw [skipComment, peek, if_neg]
  intro hcomment
  exact h '#' (beq_iff_eq.mp hcomment) rfl

/-- Spaces lead to something that starts no comment. -/
theorem skipComment_skipSpaces {n : Nat} (h : c.rest = List.replicate n ' ' ++ tail)
    (htail : ∀ ch ∈ tail.head?, ch ≠ ' ' ∧ ch ≠ '#') : c.skipSpaces.skipComment = c.skip n := by
  have hbehind := rest_skip_append h
  rw [List.length_replicate] at hbehind
  rw [skipSpaces_eq h fun ch hch => (htail ch hch).1]
  exact skipComment_eq fun ch hch => (htail ch (hbehind ▸ hch)).2

/-- A line feed or carriage return ends a line, and what is left of a gap follows. -/
theorem exists_lineBreak? {ch : Char} {more : List Char} (h : c.rest = ch :: (more ++ tail))
    (hch : ch = '\n' ∨ ch = '\r') (hmore : IsGap more) (htail : StartsToken tail) :
    ∃ c' more', c.lineBreak? = some ('\n', c') ∧ c'.rest = more' ++ tail ∧ IsGap more' ∧
      more'.length ≤ more.length := by
  have hnext : c.next.rest = more ++ tail := rest_next_eq h
  obtain rfl | rfl := hch
  · exact ⟨c.next, more, lineBreak?_newline h, hnext, hmore, Nat.le_refl _⟩
  · by_cases hpair : (more ++ tail).head? = some '\n'
    · -- the gap holds the second character of the pair, since no token starts with it
      cases more with
      | nil => exact absurd (htail '\n' hpair).2.2 (by decide)
      | cons d more =>
        obtain rfl : d = '\n' := Option.some.inj hpair
        exact ⟨c.next.next, more, lineBreak?_pair h, rest_next_eq hnext,
          fun e he => hmore e (List.mem_cons_of_mem _ he), Nat.le_succ _⟩
    · exact ⟨c.next, more, lineBreak?_return h hpair, hnext, hmore, Nat.le_refl _⟩

end Cursor

namespace Lexer

/-- The lexer skips a gap. Inside brackets nothing else changes; a gap on one line is skipped
character by character. -/
theorem exists_skipToToken {gap tail : List Char} (hgap : IsGap gap) (htail : StartsToken tail)
    {fuel : Nat} {l : Lexer} (h : l.cursor.rest = gap ++ tail) (hfuel : gap.length < fuel) :
    ∃ c allowed, l.skipToToken fuel = { l with cursor := c, keyAllowed := allowed } ∧
      c.rest = tail ∧ (l.inFlow = true → allowed = l.keyAllowed) ∧
      (IsLine gap → c = l.cursor.skip gap.length) := by
  induction fuel generalizing gap l with
  | zero => exact absurd hfuel (Nat.not_lt_zero _)
  | succ fuel ih =>
    obtain ⟨n, rest, rfl, hrest⟩ := hgap.cases
    rw [List.append_assoc] at h
    have hspaces : l.cursor.skipSpaces.skipComment = l.cursor.skip n := by
      refine Cursor.skipComment_skipSpaces h fun ch hch => ?_
      obtain rfl | ⟨d, more, rfl, hd, -⟩ := hrest
      · exact ⟨(htail ch hch).1, (htail ch hch).2.1⟩
      · obtain rfl : d = ch := Option.some.inj hch
        obtain rfl | rfl := hd <;> decide
    have hbehind := Cursor.rest_skip_append h
    rw [List.length_replicate] at hbehind
    rw [skipToToken, hspaces]
    obtain rfl | ⟨d, more, rfl, hd, hmore⟩ := hrest
    · have hbreak : (l.cursor.skip n).lineBreak? = none := by
        refine Cursor.lineBreak?_eq_none fun ch hch => ?_
        rw [hbehind] at hch
        exact (htail ch hch).2.2
      rw [hbreak]
      refine ⟨l.cursor.skip n, l.keyAllowed, rfl, hbehind, fun _ => rfl, fun _ => ?_⟩
      rw [List.append_nil, List.length_replicate]
    · obtain ⟨c, more', hbreak, hc, hmore', hlength⟩ :=
        Cursor.exists_lineBreak? hbehind hd hmore htail
      rw [hbreak]
      have hfuel' : more'.length < fuel := by
        rw [List.length_append, List.length_cons] at hfuel
        omega
      obtain ⟨c', allowed, hskip, hrest, hflow, -⟩ :=
        ih (l := { l with cursor := c, keyAllowed := l.keyAllowed || !l.inFlow }) hmore' hc hfuel'
      refine ⟨c', allowed, hskip, hrest, fun hin => ?_, fun hline => ?_⟩
      · have hallowed : allowed = (l.keyAllowed || !l.inFlow) := hflow hin
        rw [hallowed, hin, Bool.not_true, Bool.or_false]
      · have hbad := (isLine_cons.mp (isLine_append.mp hline).2).1
        obtain rfl | rfl := hd <;> exact absurd hbad (by decide)

end Lexer

end DocSchema.Yaml
