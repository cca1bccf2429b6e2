import DocSchema.Proofs.Yaml.Spacing

/-!
# Plain words

A word of letters, digits, signs and points is a plain text, if what follows it behind a gap ends
the text.

## Main definitions

* `isWordChar`: the characters of such words

## Main results

* `exists_readPlain_word`: a word between brackets
-/

namespace DocSchema.Yaml

/-- Letters, digits, signs and points. -/
def isWordChar (c : Char) : Bool := c.isAlphanum || c == '-' || c == '+' || c == '.'

/-- A word character means nothing in a plain text. -/
theorem isWordChar_ne {c ch : Char} (h : isWordChar c = true) (hch : isWordChar ch = false) :
    c ≠ ch := by
  rintro rfl
  rw [h] at hch
  cases hch

theorem isWordChar_of_isDigit {c : Char} (h : c.isDigit = true) : isWordChar c = true := by
  rw [isWordChar, Char.isAlphanum, h, Bool.or_true]
  rfl

/-- A word character is printable ASCII. -/
theorem printable_of_isWordChar {c : Char} (h : isWordChar c = true) :
    32 ≤ c.toNat ∧ c.toNat ≤ 126 := by
  have hword : (c.isUpper || c.isLower || c.isDigit || c == '-' || c == '+' || c == '.') = true := h
  have hupper (h : c.isUpper = true) : 65 ≤ c.toNat ∧ c.toNat ≤ 90 := of_decide_eq_true h
  have hlower (h : c.isLower = true) : 97 ≤ c.toNat ∧ c.toNat ≤ 122 :=
    (Bool.and_eq_true_iff.mp h).imp of_decide_eq_true of_decide_eq_true
  simp only [Bool.or_eq_true, beq_iff_eq] at hword
  obtain ((((h | h) | h) | rfl) | rfl) | rfl := hword
  · have := hupper h
    omega
  · have := hlower h
    omega
  · obtain ⟨hlow, hhigh⟩ := Char.isDigit_iff_toNat.mp h
    exact ⟨Nat.le_trans (by decide) hlow, Nat.le_trans hhigh (by decide)⟩
  · decide
  · decide
  · decide

theorem isBreak_of_isWordChar {c : Char} (h : isWordChar c = true) : isBreak c = false := by
  have hbreak (n : Nat) (hn : c.toNat = n) (hfalse : isWordChar (Char.ofNat n) = false) : False := by
    rw [← hn, Char.ofNat_toNat, h] at hfalse
    cases hfalse
  simp only [isBreak, Bool.or_eq_false_iff, beq_eq_false_iff_ne]
  refine ⟨⟨⟨⟨?_, ?_⟩, ?_⟩, ?_⟩, ?_⟩
  · exact fun hn => hbreak 10 hn (by decide)
  · exact fun hn => hbreak 13 hn (by decide)
  · exact fun hn => hbreak 0x85 hn (by decide)
  · exact fun hn => hbreak 0x2028 hn (by decide)
  · exact fun hn => hbreak 0x2029 hn (by decide)

theorem isSpacing_of_isWordChar {c : Char} (h : isWordChar c = true) : isSpacing c = false := by
  rw [isSpacing, isSpaceOrTab, isBreak_of_isWordChar h, Bool.or_false, Bool.or_eq_false_iff,
    beq_eq_false_iff_ne, beq_eq_false_iff_ne]
  exact ⟨isWordChar_ne h rfl, isWordChar_ne h rfl⟩

theorem isFlowIndicator_of_isWordChar {c : Char} (h : isWordChar c = true) :
    isFlowIndicator c = false := by
  simp only [isFlowIndicator, Bool.or_eq_false_iff, beq_eq_false_iff_ne]
  exact ⟨⟨⟨⟨isWordChar_ne h rfl, isWordChar_ne h rfl⟩, isWordChar_ne h rfl⟩, isWordChar_ne h rfl⟩,
    isWordChar_ne h rfl⟩

theorem endsPlain_of_isWordChar {c : Char} (h : isWordChar c = true) (inFlow : Bool)
    (rest : List Char) : endsPlain inFlow c rest = false := by
  have hcolon : (c == ':') = false := beq_eq_false_iff_ne.mpr (isWordChar_ne h rfl)
  have hquestion : (c == '?') = false := beq_eq_false_iff_ne.mpr (isWordChar_ne h rfl)
  rw [endsPlain, isSpacing_of_isWordChar h, hcolon, hquestion, isFlowIndicator_of_isWordChar h,
    Bool.false_and, Bool.or_false, Bool.and_false]
  rfl

/-- A plain text has as many characters as the words that nothing ends. -/
theorem plainLength_append {inFlow : Bool} {cs tail : List Char}
    (hcs : ∀ c ∈ cs, isWordChar c = true)
    (htail : ∀ c rest, tail = c :: rest → endsPlain inFlow c rest = true) :
    plainLength inFlow (cs ++ tail) = cs.length := by
  induction cs with
  | nil =>
    cases tail with
    | nil => rfl
    | cons c rest => rw [List.nil_append, plainLength, if_pos (htail c rest rfl), List.length_nil]
  | cons c cs ih =>
    rw [List.forall_mem_cons] at hcs
    rw [List.cons_append, plainLength, endsPlain_of_isWordChar hcs.1,
      if_neg Bool.false_ne_true, ih hcs.2, List.length_cons]

/-! ## The gap behind a word -/

theorem Cursor.atSeparator_eq_false {c : Cursor} (h : ∀ ch ∈ c.rest.head?, ch ≠ '-' ∧ ch ≠ '.') :
    c.atSeparator = false := by
  rw [atSeparator]
  split
  · next hrest =>
    rw [hrest] at h
    exact absurd rfl (h '-' rfl).1
  · next hrest =>
    rw [hrest] at h
    exact absurd rfl (h '.' rfl).2
  · rfl

/-- Behind a gap there is no line that separates documents, if what follows opens none. -/
theorem IsGap.atSeparator_eq_false {gap tail : List Char} (h : IsGap gap) {c : Cursor}
    (hrest : c.rest = gap ++ tail) (htail : ∀ ch ∈ tail.head?, ch ≠ '-' ∧ ch ≠ '.') :
    c.atSeparator = false := by
  refine Cursor.atSeparator_eq_false fun ch hch => ?_
  rw [hrest] at hch
  cases gap with
  | nil => exact htail ch hch
  | cons d gap =>
    obtain rfl : d = ch := Option.some.inj hch
    have hd : d = ' ' ∨ d = '\n' ∨ d = '\r' := by simpa using h d List.mem_cons_self
    obtain rfl | rfl | rfl := hd <;> decide

section Gap

variable {gap tail : List Char} (hgap : IsGap gap) (htail : StartsToken tail)
  (hseparator : ∀ ch ∈ tail.head?, ch ≠ '-' ∧ ch ≠ '.')

include htail in
/-- A gap is a run of spaces with nothing behind it, or with the end of a line. -/
theorem exists_skipSpaces_gap (hgap : IsGap gap) {c : Cursor} (hrest : c.rest = gap ++ tail) :
    c.skipSpaces.rest = tail ∧ c.skipSpaces.lineBreak? = none ∨
      ∃ c' more, c.skipSpaces.lineBreak? = some ('\n', c') ∧ c'.rest = more ++ tail ∧ IsGap more ∧
        more.length < gap.length := by
  obtain ⟨n, rest, rfl, hcases⟩ := hgap.cases
  rw [List.append_assoc] at hrest
  have hspaces : c.skipSpaces = c.skip n := by
    refine Cursor.skipSpaces_eq hrest fun ch hch => ?_
    obtain rfl | ⟨d, more, rfl, hd, -⟩ := hcases
    · exact (htail ch hch).1
    · obtain rfl : d = ch := Option.some.inj hch
      obtain rfl | rfl := hd <;> decide
  have hbehind := Cursor.rest_skip_append hrest
  rw [List.length_replicate] at hbehind
  rw [hspaces]
  obtain rfl | ⟨d, more, rfl, hd, hmore⟩ := hcases
  · refine .inl ⟨hbehind, Cursor.lineBreak?_eq_none fun ch hch => ?_⟩
    rw [hbehind] at hch
    exact (htail ch hch).2.2
  · obtain ⟨c', more', hbreak, hc', hmore', hlength⟩ :=
      Cursor.exists_lineBreak? hbehind hd hmore htail
    refine .inr ⟨c', more', hbreak, hc', hmore', ?_⟩
    rw [List.length_append, List.length_cons]
    omega

include hgap htail hseparator in
theorem rest_plainBreaks {fuel : Nat} {c : Cursor} (hrest : c.rest = gap ++ tail)
    (hfuel : gap.length < fuel) : (plainBreaks fuel c).2.1.rest = tail := by
  induction fuel generalizing gap c with
  | zero => exact absurd hfuel (Nat.not_lt_zero _)
  | succ fuel ih =>
    rw [plainBreaks]
    dsimp only
    obtain ⟨hbehind, hbreak⟩ | ⟨c', more, hbreak, hc', hmore, hlength⟩ :=
      exists_skipSpaces_gap htail hgap hrest
    · rw [hbreak]
      exact hbehind
    · rw [hbreak]
      dsimp only
      rw [hmore.atSeparator_eq_false hc' hseparator, if_neg Bool.false_ne_true]
      exact ih hmore hc' (by omega)

include hgap htail hseparator in
/-- The spacing behind a word takes the whole gap. -/
theorem rest_plainSpacing {c : Cursor} (hrest : c.rest = gap ++ tail) :
    (plainSpacing c).2.1.rest = tail := by
  rw [plainSpacing]
  dsimp only
  obtain ⟨hbehind, hbreak⟩ | ⟨c', more, hbreak, hc', hmore, hlength⟩ :=
    exists_skipSpaces_gap htail hgap hrest
  · rw [hbreak]
    exact hbehind
  · rw [hbreak]
    dsimp only
    rw [hmore.atSeparator_eq_false hc' hseparator, if_neg Bool.false_ne_true]
    have hfuel : more.length < c'.rest.length + 1 := by
      rw [hc', List.length_append]
      omega
    exact rest_plainBreaks hmore htail hseparator hc' hfuel

end Gap

/-! ## Words -/

/-- A plain text between brackets has ended where a mark stands. -/
theorem plainBody_mark {c : Cursor} {tail : List Char} (hrest : c.rest = tail)
    (hends : ∀ d rest, tail = d :: rest → endsPlain true d rest = true) (indent fuel : Nat)
    (read : List (List Char)) (spacing : List Char) (ended : Bool) :
    plainBody true indent fuel read spacing ended c = (read.reverse.flatten, c, ended) := by
  cases fuel with
  | zero => rfl
  | succ fuel =>
    have hzero : plainLength true c.rest = 0 := by
      rw [hrest]
      exact @plainLength_append true [] _ (fun d hd => absurd hd List.not_mem_nil) hends
    rw [plainBody, hzero, if_pos]
    exact ite_self 0

/-- What a mark between brackets is not. -/
theorem isFlowIndicator_ne {d : Char} (h : isFlowIndicator d = true) :
    (d ≠ ' ' ∧ d ≠ '#' ∧ isBreak d = false) ∧ d ≠ '-' ∧ d ≠ '.' := by
  simp only [isFlowIndicator, Bool.or_eq_true, beq_iff_eq] at h
  obtain (((rfl | rfl) | rfl) | rfl) | rfl := h <;> decide

/-- A word between brackets, with a gap and a mark behind it. -/
theorem exists_readPlain_word {cs gap tail : List Char} (hne : cs ≠ [])
    (hcs : ∀ c ∈ cs, isWordChar c = true) (hgap : IsGap gap)
    (htail : ∀ c ∈ tail.head?, isFlowIndicator c = true) (indent : Nat) {c : Cursor}
    (hrest : c.rest = cs ++ (gap ++ tail)) :
    ∃ c' ended, readPlain true indent c = (String.ofList cs, c', ended) ∧ c'.rest = tail := by
  have hends : ∀ d rest, tail = d :: rest → endsPlain true d rest = true := by
    rintro d rest rfl
    rw [endsPlain, htail d rfl]
    simp only [Bool.or_true, Bool.true_and]
  have hgapEnds : ∀ d rest, gap ++ tail = d :: rest → endsPlain true d rest = true := by
    intro d rest hd
    cases gap with
    | nil => exact hends d rest hd
    | cons e gap =>
      obtain rfl : e = d := (List.cons.inj hd).1
      have he : e = ' ' ∨ e = '\n' ∨ e = '\r' := by simpa using hgap e List.mem_cons_self
      obtain rfl | rfl | rfl := he <;> rfl
  have hstart : StartsToken tail := fun d hd => (isFlowIndicator_ne (htail d hd)).1
  have hseparator : ∀ d ∈ tail.head?, d ≠ '-' ∧ d ≠ '.' := fun d hd =>
    (isFlowIndicator_ne (htail d hd)).2
  have hbehind := Cursor.rest_skip_append hrest
  have hcursor := rest_plainSpacing hgap hstart hseparator hbehind
  have hlength : plainLength true c.rest = cs.length := by
    rw [hrest, plainLength_append hcs hgapEnds]
  have hpeek : (c.peek == some '#') = false := by
    obtain ⟨d, rest, rfl⟩ := List.exists_cons_of_ne_nil hne
    rw [Cursor.peek, hrest, List.cons_append, List.head?_cons, beq_eq_false_iff_ne]
    intro hd
    exact isWordChar_ne (hcs d List.mem_cons_self) rfl (Option.some.inj hd)
  have hcount : cs.length ≠ 0 := fun h => hne (List.eq_nil_of_length_eq_zero h)
  have htake : c.rest.take cs.length = cs := by rw [hrest, List.take_left]
  rcases hspacing : plainSpacing (c.skip cs.length) with ⟨spacing, c', ended⟩
  rw [hspacing] at hcursor
  have hbody : plainBody true indent (c.rest.length + 1) [] [] false c = (cs, c', ended) := by
    rw [plainBody, hpeek, if_neg Bool.false_ne_true, hlength, if_neg hcount, hspacing, htake]
    dsimp only
    split
    · exact congrArg (·, c', ended) (List.append_nil cs)
    · rw [plainBody_mark hcursor hends]
      exact congrArg (·, c', ended) (List.append_nil cs)
  refine ⟨c', ended, ?_, hcursor⟩
  rw [readPlain, hbody]

end DocSchema.Yaml
