import DocSchema.Proofs.Json.Compact
import DocSchema.Proofs.Yaml.Writer.Floats

/-!
# What a value on one line tells

A value on one line tells where it ends and which value it is. Null, truth values and numbers are
words, which end where a character follows that no word has. A text ends with its closing quote, a
list and an object with a bracket. So two values with the same text are the same value, and they stay
so with anything behind them that goes on with no word.

A number that is not finite has a name of its own. Any other number with a fraction is known from its
digits only if it is in lowest form, as all numbers are that were read or computed.

## Main definitions

* `InLowestForm`: a value with all its numbers in lowest form
* `IsWord`, `wordValue`: the values that are words, and the value of a word
* `joinParts`: parts with commas between them

## Main results

* `wordValue_compactChars`: a word tells its value
* `InLowestForm.append_inj`: a value is known from a text that starts with it
* `InLowestForm.eq_of_compact_eq`
-/

namespace DocSchema.Json

open Number (Binary64 Decimal)
open Yaml (isWordChar isWordChar_of_isDigit)

/-- Every floating point number in a value, at any depth, is in lowest form. -/
inductive InLowestForm : Json → Prop
  | null : InLowestForm null
  | bool (b : Bool) : InLowestForm (bool b)
  | int (n : Int) : InLowestForm (int n)
  | float {x : Binary64} : x.Canonical → InLowestForm (float x)
  | text (s : String) : InLowestForm (text s)
  | list {items : List Json} : (∀ item ∈ items, InLowestForm item) → InLowestForm (list items)
  | object {members : List (String × Json)} :
    (∀ member ∈ members, InLowestForm member.2) → InLowestForm (object members)

/-! ## Words -/

/-- The values that are written as a word. -/
inductive IsWord : Json → Prop
  | null : IsWord null
  | bool (b : Bool) : IsWord (bool b)
  | int (n : Int) : IsWord (int n)
  | float (x : Binary64) : IsWord (float x)

/-- The words that are names, with their values. -/
def names : List (List Char × Json) :=
  [("null".toList, null), ("true".toList, bool true), ("false".toList, bool false),
    ("NaN".toList, float .nan), ("Infinity".toList, float (.infinite false)),
    ("-Infinity".toList, float (.infinite true))]

/-- The number of a word that is no name. A point or an exponent make it one with a fraction. -/
def numberValue (cs : List Char) : Json :=
  if '.' ∈ cs ∨ 'e' ∈ cs then
    match Yaml.Scalar.float (String.ofList (Yaml.withPoint cs)) with
    | .ok x => float x
    | .error _ => null
  else ((number? cs).map Prod.fst).getD null

/-- The value of a word. -/
def wordValue (cs : List Char) : Json :=
  match names.find? fun name => name.1 == cs with
  | some name => name.2
  | none => numberValue cs

theorem wordValue_of_isNumberChar {cs : List Char} (h : ∀ c ∈ cs, IsNumberChar c) :
    wordValue cs = numberValue cs := by
  have hletter : ∀ name ∈ names, (name.1.any fun c => !decide (IsNumberChar c)) = true := by decide
  have hnone : (names.find? fun name => name.1 == cs) = none := by
    refine List.find?_eq_none.mpr fun name hname heq => ?_
    obtain ⟨c, hc, hnot⟩ := List.any_eq_true.mp (hletter name hname)
    rw [beq_iff_eq] at heq
    rw [decide_eq_true (h c (heq ▸ hc))] at hnot
    cases hnot
  rw [wordValue, hnone]

theorem numberValue_intChars (n : Int) : numberValue (intChars n) = int n := by
  have hdigits : ∀ c ∈ intChars n, c = '-' ∨ c.isDigit = true := by
    intro c hc
    rw [intChars] at hc
    split_ifs at hc
    · exact (List.mem_cons.mp hc).imp_right isDigit_of_mem_digitChars
    · exact .inr (isDigit_of_mem_digitChars hc)
  have hpoint : ¬ ('.' ∈ intChars n ∨ 'e' ∈ intChars n) := by
    rintro (hmem | hmem)
    · exact absurd (hdigits _ hmem) (by decide)
    · exact absurd (hdigits _ hmem) (by decide)
  have hread := number?_intChars n endsNumber_nil
  rw [List.append_nil] at hread
  rw [numberValue, if_neg hpoint, hread]
  rfl

/-- A decimal is written with a point or an exponent. -/
theorem LaysOut.point_or_exponent_mem {value : Nat} {unit : Int} {cs : List Char}
    (h : LaysOut value unit cs) : '.' ∈ cs ∨ 'e' ∈ cs := by
  cases h with
  | places => exact .inl (List.mem_append_right _ List.mem_cons_self)
  | exponent => exact .inr (List.mem_append_right _ List.mem_cons_self)
  | both => exact .inl (List.mem_append_right _ List.mem_cons_self)

theorem numberValue_floatChars {m : Number.Dyadic} (hm : m.Canonical) (negative : Bool) :
    numberValue (floatChars (.finite negative m)) = float (.finite negative m) := by
  have hchars : floatChars (.finite negative m) = Portable.signChars negative ++
      if m.mantissa = 0 then ['0', '.', '0'] else (Decimal.shortest m).chars := rfl
  have hpoint : '.' ∈ floatChars (.finite negative m) ∨ 'e' ∈ floatChars (.finite negative m) := by
    rw [hchars]
    split_ifs with hzero
    · exact .inl (by simp)
    · obtain ⟨k, -, hlaysOut⟩ := exists_laysOut (Decimal.digits_shortest_ne_zero hzero)
      exact hlaysOut.point_or_exponent_mem.imp (List.mem_append_right _) (List.mem_append_right _)
  obtain ⟨cs, digits, unit, htext, hspells, hread⟩ := Yaml.exists_spellsDecimal_finite hm negative
  have hvalue := (Yaml.float_of_spellsDecimal hspells negative).2
  rw [← htext, Yaml.floatText_finite, ← Yaml.withPoint_sign, ← hchars, hread] at hvalue
  rw [numberValue, if_pos hpoint, hvalue]

/-- A word tells its value. -/
theorem wordValue_compactChars {j : Json} (hword : IsWord j) (h : InLowestForm j) :
    wordValue (compactChars j) = j := by
  cases hword with
  | null => rfl
  | bool b => cases b <;> rfl
  | int n =>
    exact (wordValue_of_isNumberChar (isNumber_intChars n).isNumberChar).trans
      (numberValue_intChars n)
  | float x =>
    cases x with
    | nan => rfl
    | infinite negative => cases negative <;> rfl
    | finite negative m =>
      cases h with
      | float hx =>
        exact (wordValue_of_isNumberChar (isNumber_floatChars negative m).isNumberChar).trans
          (numberValue_floatChars (hx negative m rfl) negative)

/-! ## Where a word ends -/

theorem IsNumberChar.isWordChar {c : Char} (h : IsNumberChar c) : isWordChar c = true := by
  rcases h with h | h
  · exact isWordChar_of_isDigit h
  · exact List.all_eq_true.mp (by decide : ['-', '+', '.', 'e', 'E'].all Yaml.isWordChar = true) c h

theorem Grammar.IsNumber.ne_nil {cs : List Char} (h : Grammar.IsNumber cs) : cs ≠ [] := by
  cases h with
  | parts _ hwhole _ _ =>
    cases hwhole with
    | zero => simp
    | digits hdigits _ => simp [hdigits.ne_nil]

/-- A word is made of the characters of words. -/
theorem IsWord.isWordChar {j : Json} (h : IsWord j) :
    compactChars j ≠ [] ∧ ∀ c ∈ compactChars j, isWordChar c = true := by
  have hname {cs : List Char} (h : (!cs.isEmpty && cs.all Yaml.isWordChar) = true) :
      cs ≠ [] ∧ ∀ c ∈ cs, Yaml.isWordChar c = true := by
    simpa using h
  have hnumber {cs : List Char} (h : Grammar.IsNumber cs) :
      cs ≠ [] ∧ ∀ c ∈ cs, Yaml.isWordChar c = true :=
    ⟨h.ne_nil, fun c hc => (h.isNumberChar c hc).isWordChar⟩
  cases h with
  | null => exact hname (by decide)
  | bool b => cases b <;> exact hname (by decide)
  | int n => exact hnumber (isNumber_intChars n)
  | float x =>
    cases x with
    | nan => exact hname (by decide)
    | infinite negative => cases negative <;> exact hname (by decide)
    | finite negative m => exact hnumber (isNumber_floatChars negative m)

/-- What stands behind a word does not go on with it. -/
def EndsWord (rest : List Char) : Prop := ∀ c ∈ rest.head?, isWordChar c = false

theorem endsWord_nil : EndsWord [] := nofun

theorem endsWord_cons {c : Char} (hc : isWordChar c = false) (rest : List Char) :
    EndsWord (c :: rest) := fun _ hd => Option.some.inj hd ▸ hc

theorem takeWhile_isWordChar {cs rest : List Char} (h : ∀ c ∈ cs, isWordChar c = true)
    (hrest : EndsWord rest) : (cs ++ rest).takeWhile isWordChar = cs := by
  rw [List.takeWhile_append_of_pos h]
  cases rest with
  | nil => exact List.append_nil cs
  | cons c rest => rw [List.takeWhile_cons_of_neg (by simp [hrest c rfl]), List.append_nil]

/-! ## How a value starts -/

variable {j k : Json} {rest rest' : List Char}

/-- The mark that a value starts with, if it is not a word. -/
def mark? : Json → Option Char
  | text _ => some '"'
  | list _ => some '['
  | object _ => some '\x7b'
  | _ => none

theorem isWord_of_mark? (h : j.mark? = none) : IsWord j := by
  cases j with
  | null => exact .null
  | bool b => exact .bool b
  | int n => exact .int n
  | float x => exact .float x
  | _ => cases h

/-- The first character of a value tells whether it is a word, a text, a list or an object. -/
theorem filter_head?_compactChars (j : Json) (rest : List Char) :
    (compactChars j ++ rest).head?.filter (fun c => !isWordChar c) = j.mark? := by
  have hword (h : IsWord j) :
      (compactChars j ++ rest).head?.filter (fun c => !Yaml.isWordChar c) = none := by
    obtain ⟨hne, hall⟩ := h.isWordChar
    obtain ⟨c, cs, hc⟩ := List.exists_cons_of_ne_nil hne
    have hfirst : Yaml.isWordChar c = true := hall c (hc ▸ List.mem_cons_self)
    simp [hc, hfirst]
  cases j with
  | null => exact hword .null
  | bool b => exact hword (.bool b)
  | int n => exact hword (.int n)
  | float x => exact hword (.float x)
  | text s => rfl
  | list items => rfl
  | object members => rfl

theorem mark?_eq_of_append_eq (h : compactChars j ++ rest = compactChars k ++ rest') :
    j.mark? = k.mark? := by
  rw [← filter_head?_compactChars j rest, h, filter_head?_compactChars]

/-- No value starts with a closing bracket. -/
theorem head?_compactChars_ne {c : Char} (hc : c = ']' ∨ c = '\x7d') (j : Json)
    (rest : List Char) : (compactChars j ++ rest).head? ≠ some c := by
  intro h
  have hmark := filter_head?_compactChars j rest
  have hsome : (some c).filter (fun c => !isWordChar c) = some c := by
    rcases hc with rfl | rfl <;> rfl
  rw [h, hsome] at hmark
  rcases hc with rfl | rfl <;> cases j <;> simp [mark?] at hmark

/-! ## Texts and parts -/

theorem textChars_append_inj {s t : String} (h : textChars s ++ rest = textChars t ++ rest') :
    s = t ∧ rest = rest' := by
  have hread (s : String) (rest : List Char) :
      string? (textChars s ++ rest).tail = some (s, rest) := by
    have htail : (textChars s ++ rest).tail = s.toList.flatMap escapedChar ++ '"' :: rest := by
      simp [textChars]
    rw [htail, string?_flatMap]
  have hboth := hread s rest
  rw [h, hread] at hboth
  exact (Prod.mk.inj (Option.some.inj hboth)).imp Eq.symm Eq.symm

variable {α : Type} {f : α → List Char}

/-- Parts with a comma and a blank between each two. -/
def joinParts (f : α → List Char) : List α → List Char
  | [] => []
  | [a] => f a
  | a :: as => f a ++ ',' :: ' ' :: joinParts f as

theorem compactItems_eq_joinParts (items : List Json) :
    compactItems items = joinParts compactChars items := by
  induction items with
  | nil => rfl
  | cons item items ih =>
    cases items with
    | nil => rfl
    | cons next items => rw [compactItems, joinParts, ih] <;> exact List.cons_ne_nil _ _

/-- A member of an object on one line. -/
def memberChars (member : String × Json) : List Char :=
  textChars member.1 ++ ':' :: ' ' :: compactChars member.2

theorem compactMembers_eq_joinParts (members : List (String × Json)) :
    compactMembers members = joinParts memberChars members := by
  induction members with
  | nil => rfl
  | cons member members ih =>
    cases members with
    | nil => rfl
    | cons next members =>
      rw [compactMembers, joinParts, memberChars, ih, List.append_assoc]
      · rfl
      · exact List.cons_ne_nil _ _
      · exact List.cons_ne_nil _ _

/-- Members are known if their values are. -/
theorem memberChars_append_inj {m n : String × Json}
    (hvalue : compactChars m.2 ++ rest = compactChars n.2 ++ rest' → m.2 = n.2 ∧ rest = rest')
    (h : memberChars m ++ rest = memberChars n ++ rest') : m = n ∧ rest = rest' := by
  rw [memberChars, memberChars, List.append_assoc, List.append_assoc] at h
  obtain ⟨hkey, h⟩ := textChars_append_inj h
  exact (hvalue (List.cons.inj (List.cons.inj h).2).2).imp_left (Prod.ext hkey)

/-- What follows the first of several parts. -/
def behindPart (f : α → List Char) : List α → List Char → List Char
  | [], rest => rest
  | a :: as, rest => ',' :: ' ' :: (joinParts f (a :: as) ++ rest)

theorem joinParts_cons_append (f : α → List Char) (a : α) (as : List α) (rest : List Char) :
    joinParts f (a :: as) ++ rest = f a ++ behindPart f as rest := by
  cases as with
  | nil => rfl
  | cons b as => simp [joinParts, behindPart]

/-- Parts up to a mark are known, if each of them is and none starts with the mark. -/
theorem joinParts_append_inj {close : Char} (hclose : isWordChar close = false)
    (hcomma : close ≠ ',') (hstart : ∀ a rest, (f a ++ rest).head? ≠ some close) {as bs : List α}
    (hpart : ∀ a ∈ as, ∀ b ∈ bs, ∀ rest rest', EndsWord rest → EndsWord rest' →
      f a ++ rest = f b ++ rest' → a = b ∧ rest = rest')
    (h : joinParts f as ++ close :: rest = joinParts f bs ++ close :: rest') :
    as = bs ∧ rest = rest' := by
  have hends (as : List α) (rest : List Char) : EndsWord (behindPart f as (close :: rest)) := by
    cases as with
    | nil => exact endsWord_cons hclose _
    | cons a as => exact endsWord_cons (by decide) _
  have hnil (b : α) (bs : List α) (rest rest' : List Char) :
      close :: rest ≠ joinParts f (b :: bs) ++ close :: rest' := fun heq =>
    hstart b _ (by rw [← joinParts_cons_append, ← heq, List.head?_cons])
  induction as generalizing bs with
  | nil =>
    cases bs with
    | nil => exact ⟨rfl, (List.cons.inj h).2⟩
    | cons b bs => exact absurd h (hnil b bs _ _)
  | cons a as ih =>
    cases bs with
    | nil => exact absurd h.symm (hnil a as _ _)
    | cons b bs =>
      rw [joinParts_cons_append, joinParts_cons_append] at h
      obtain ⟨rfl, hbehind⟩ := hpart a List.mem_cons_self b List.mem_cons_self _ _
        (hends as rest) (hends bs rest') h
      suffices hrest : as = bs ∧ rest = rest' from hrest.imp_left (congrArg (a :: ·))
      cases as with
      | nil =>
        cases bs with
        | nil => exact ⟨rfl, (List.cons.inj hbehind).2⟩
        | cons _ _ => exact absurd (List.cons.inj hbehind).1 hcomma
      | cons _ _ =>
        cases bs with
        | nil => exact absurd (List.cons.inj hbehind).1.symm hcomma
        | cons _ _ =>
          refine ih (fun a ha b hb => hpart a (.tail _ ha) b (.tail _ hb)) ?_
          exact (List.cons.inj (List.cons.inj hbehind).2).2

/-! ## Values -/

theorem IsWord.append_inj (hword : IsWord j) (hj : InLowestForm j) (hk : InLowestForm k)
    (hrest : EndsWord rest) (hrest' : EndsWord rest')
    (h : compactChars j ++ rest = compactChars k ++ rest') : j = k ∧ rest = rest' := by
  have hmark : k.mark? = none := by
    rw [← mark?_eq_of_append_eq h]
    cases hword <;> rfl
  have hword' := isWord_of_mark? hmark
  have hchars : compactChars j = compactChars k := by
    rw [← takeWhile_isWordChar hword.isWordChar.2 hrest, h,
      takeWhile_isWordChar hword'.isWordChar.2 hrest']
  constructor
  · rw [← wordValue_compactChars hword hj, hchars, wordValue_compactChars hword' hk]
  · rw [hchars] at h
    exact List.append_cancel_left h

theorem object_append (members : List (String × Json)) (rest : List Char) :
    compactChars (object members) ++ rest =
      '\x7b' :: (joinParts memberChars members ++ '\x7d' :: rest) := by
  simp [compactChars, compactMembers_eq_joinParts]

theorem list_append (items : List Json) (rest : List Char) :
    compactChars (list items) ++ rest = '[' :: (joinParts compactChars items ++ ']' :: rest) := by
  simp [compactChars, compactItems_eq_joinParts]

/-- A text that starts with a value tells the value, and what stands behind it. -/
theorem InLowestForm.append_inj (hj : InLowestForm j) (hk : InLowestForm k)
    (hrest : EndsWord rest) (hrest' : EndsWord rest')
    (h : compactChars j ++ rest = compactChars k ++ rest') : j = k ∧ rest = rest' := by
  induction hj generalizing k rest rest' with
  | null => exact IsWord.null.append_inj .null hk hrest hrest' h
  | bool b => exact (IsWord.bool b).append_inj (.bool b) hk hrest hrest' h
  | int n => exact (IsWord.int n).append_inj (.int n) hk hrest hrest' h
  | float hx => exact (IsWord.float _).append_inj (.float hx) hk hrest hrest' h
  | text s =>
    have hmark := mark?_eq_of_append_eq h
    cases hk with
    | text t =>
      obtain ⟨rfl, hbehind⟩ := textChars_append_inj h
      exact ⟨rfl, hbehind⟩
    | _ => exact absurd hmark (by simp [mark?])
  | @list items _ ih =>
    have hmark := mark?_eq_of_append_eq h
    cases hk with
    | list hothers =>
      rw [list_append, list_append] at h
      obtain ⟨rfl, hbehind⟩ := joinParts_append_inj (by decide) (by decide)
        (head?_compactChars_ne (.inl rfl))
        (fun a ha b hb _ _ hrest hrest' => ih a ha (hothers b hb) hrest hrest')
        (List.cons.inj h).2
      exact ⟨rfl, hbehind⟩
    | _ => exact absurd hmark (by simp [mark?])
  | @object members _ ih =>
    have hmark := mark?_eq_of_append_eq h
    cases hk with
    | object hothers =>
      rw [object_append, object_append] at h
      obtain ⟨rfl, hbehind⟩ := joinParts_append_inj (by decide) (by decide)
        (fun member rest => by simp [memberChars, textChars])
        (fun a ha b hb _ _ hrest hrest' => memberChars_append_inj fun hvalues =>
          ih a ha (hothers b hb) hrest hrest' hvalues)
        (List.cons.inj h).2
      exact ⟨rfl, hbehind⟩
    | _ => exact absurd hmark (by simp [mark?])

/-- **One line.** A value is known from its text on one line. -/
theorem InLowestForm.eq_of_compact_eq (hj : InLowestForm j) (hk : InLowestForm k)
    (h : j.compact = k.compact) : j = k := by
  refine (hj.append_inj hk endsWord_nil endsWord_nil ?_).1
  rw [compact, compact, String.ofList_inj] at h
  rw [h]

end DocSchema.Json
