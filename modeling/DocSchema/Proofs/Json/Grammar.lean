import DocSchema.Json.Grammar
import DocSchema.Proofs.Json.RoundTrip
import DocSchema.Proofs.Number.Decimal
import Mathlib.Algebra.Group.Nat.Defs

/-!
# Values are written as JSON

A value that is written on several lines belongs to the grammar of JSON, with one exception: a
number that is infinite or not a number is written by a name that the grammar does not have. This
module shows that all other values are written as the grammar asks.

Numbers are the part that depends on how they are spelled. A decimal has digits in front of its
point whatever its size, and the first of them is a zero only if it is the only one.

## Main definitions

* `LaysOut`: how a decimal is laid out around its point and its exponent
* `Finite`: a value without infinite numbers and without what is not a number

## Main results

* `exists_laysOut`: the layout of a decimal
* `isNumber_floatChars`: finite numbers are written as numbers
* `Finite.isValue`: finite values are written as values
-/

namespace DocSchema.Json

open Grammar
open Number (Binary64 Decimal digitChars exponentChars)

/-! ## Numbers -/

theorem isDigits_digitChars (n : Nat) : IsDigits (digitChars n) :=
  ⟨digitChars_ne_nil n, fun _ => isDigit_of_mem_digitChars⟩

theorem isWhole_digitChars (n : Nat) : IsWhole (digitChars n) := by
  by_cases hn : n = 0
  · subst hn
    exact .zero
  · exact .digits (isDigits_digitChars n) (head?_digitChars_ne_zero hn)

theorem isNumber_intChars (n : Int) : IsNumber (intChars n) := by
  have hparts := fun sign (hsign : sign ∈ [[], ['-']]) =>
    IsNumber.parts hsign (isWhole_digitChars n.natAbs) .none .none
  rw [intChars]
  split_ifs with hn
  · simpa using hparts ['-'] (by simp)
  · simpa using hparts [] (by simp)

/-- Digits that are taken from others, and zeros among them. -/
theorem Grammar.IsDigits.of_mem_or_zero {cs ds : List Char} (h : IsDigits cs) (hds : ds ≠ [])
    (hmem : ∀ c ∈ ds, c ∈ cs ∨ c = '0') : IsDigits ds := by
  refine ⟨hds, fun c hc => ?_⟩
  rcases hmem c hc with hc | rfl
  · exact h.isDigit c hc
  · rfl

theorem Grammar.IsDigits.replicate_append {cs : List Char} (h : IsDigits cs) (n : Nat) :
    IsDigits (List.replicate n '0' ++ cs) := by
  refine h.of_mem_or_zero (by simp [h.ne_nil]) fun c hc => ?_
  rcases List.mem_append.mp hc with hzero | hc
  · exact .inr (List.eq_of_mem_replicate hzero)
  · exact .inl hc

theorem isExponent_exponentChars (exponent : Int) : IsExponent (exponentChars exponent) := by
  have hdigits := (isDigits_digitChars exponent.natAbs).replicate_append
    (2 - (digitChars exponent.natAbs).length)
  rw [exponentChars]
  have hsigned := fun sign (hsign : sign ∈ [[], ['+'], ['-']]) =>
    IsExponent.digits (List.mem_cons_self : 'e' ∈ ['e', 'E']) hsign hdigits
  split_ifs
  · exact hsigned ['-'] (by simp)
  · exact hsigned ['+'] (by simp)

/-! ## Layouts of decimals -/

theorem digitsValue_zeros (cs : List Char) (k : Nat) :
    Binary64.digitsValue (cs ++ List.replicate k '0') = Binary64.digitsValue cs * 10 ^ k := by
  induction k with
  | zero => simp
  | succ k ih =>
    have hlast : ∀ ds, Binary64.digitsValue (ds ++ ['0']) = 10 * Binary64.digitsValue ds := fun ds => by
      rw [Binary64.digitsValue, List.foldl_append]
      rfl
    rw [List.replicate_succ', ← List.append_assoc, hlast, ih, Nat.pow_succ, Nat.mul_comm 10,
      Nat.mul_assoc]

theorem isDigits_zero : IsDigits ['0'] := ⟨List.cons_ne_nil _ _, List.forall_mem_singleton.mpr rfl⟩

/-- How a number of units of a decimal place is laid out. There are digits in front of the point,
and digits behind it or an exponent or both. -/
inductive LaysOut (value : Nat) (unit : Int) : List Char → Prop
  | places {whole places : List Char} (hwhole : IsWhole whole) (hplaces : IsDigits places)
    (hvalue : Binary64.digitsValue (whole ++ places) = value) (hunit : -(places.length : Int) = unit) :
    LaysOut value unit (whole ++ '.' :: places)
  | exponent {whole : List Char} (hwhole : IsWhole whole)
    (hvalue : Binary64.digitsValue whole = value) :
    LaysOut value unit (whole ++ exponentChars unit)
  | both {whole places : List Char} {order : Int} (hwhole : IsWhole whole)
    (hplaces : IsDigits places) (hvalue : Binary64.digitsValue (whole ++ places) = value)
    (hunit : order - places.length = unit) :
    LaysOut value unit (whole ++ '.' :: (places ++ exponentChars order))

section Layouts

variable {digits : List Char} {value : Nat} {unit : Int}

/-- The digits that a decimal starts with are in front of its point, with zeros behind them. -/
theorem isWhole_of_head? (hdigits : IsDigits digits) (hhead : digits.head? ≠ some '0')
    {whole : List Char} (hne : whole ≠ []) (hmem : ∀ c ∈ whole, c ∈ digits ∨ c = '0')
    (hsame : whole.head? = digits.head?) : IsWhole whole :=
  .digits (hdigits.of_mem_or_zero hne hmem) (hsame ▸ hhead)

/-- Nothing but zeros is in front of the digits. -/
theorem laysOut_small (hdigits : IsDigits digits) (k : Nat)
    (hvalue : Binary64.digitsValue digits = value) (hunit : -(k + digits.length : Int) = unit) :
    LaysOut value unit ('0' :: '.' :: (List.replicate k '0' ++ digits)) := by
  refine .places .zero (hdigits.replicate_append k) ?_ ?_
  · exact (digitsValue_replicate (k + 1) digits).trans hvalue
  · rw [List.length_append, List.length_replicate]
    exact_mod_cast hunit

/-- All digits are in front of the point. -/
theorem laysOut_large (hdigits : IsDigits digits) (hhead : digits.head? ≠ some '0') (k : Nat)
    (hvalue : Binary64.digitsValue digits * 10 ^ (k + 1) = value) (hunit : -1 = unit) :
    LaysOut value unit (digits ++ List.replicate k '0' ++ ['.', '0']) := by
  refine .places (isWhole_of_head? hdigits hhead ?_ ?_ ?_) isDigits_zero ?_ hunit
  · exact List.append_ne_nil_of_left_ne_nil hdigits.ne_nil _
  · exact fun c hc => (List.mem_append.mp hc).imp_right List.eq_of_mem_replicate
  · rw [List.head?_append_of_ne_nil _ hdigits.ne_nil]
  · rw [List.append_assoc, ← List.replicate_succ', digitsValue_zeros, hvalue]

/-- There are digits on both sides of the point. -/
theorem laysOut_inside (hdigits : IsDigits digits) (hhead : digits.head? ≠ some '0') {n : Nat}
    (hn : 0 < n) (hlt : n < digits.length) (hvalue : Binary64.digitsValue digits = value)
    (hunit : (n : Int) - digits.length = unit) :
    LaysOut value unit (digits.take n ++ '.' :: digits.drop n) := by
  refine .places (isWhole_of_head? hdigits hhead ?_ ?_ ?_) (hdigits.of_mem_or_zero ?_ ?_) ?_ ?_
  · rw [ne_eq, List.take_eq_nil_iff, not_or]
    exact ⟨Nat.ne_of_gt hn, hdigits.ne_nil⟩
  · exact fun c hc => .inl (List.mem_of_mem_take hc)
  · rw [List.head?_take, if_neg (Nat.ne_of_gt hn)]
  · rw [ne_eq, List.drop_eq_nil_iff]
    exact Nat.not_le.mpr hlt
  · exact fun c hc => .inl (List.mem_of_mem_drop hc)
  · rw [List.take_append_drop, hvalue]
  · rw [List.length_drop]
    omega

/-- One digit is in front of the point, and there is an exponent. -/
theorem laysOut_exponent {first : Char} {more : List Char} (hdigits : IsDigits (first :: more))
    (hhead : (first :: more).head? ≠ some '0') {order : Int}
    (hvalue : Binary64.digitsValue (first :: more) = value) (hunit : order - more.length = unit) :
    LaysOut value unit (match first :: more with
      | [] => []
      | [first] => first :: exponentChars order
      | first :: more => first :: '.' :: (more ++ exponentChars order)) := by
  have hfirst : IsWhole [first] := isWhole_of_head? hdigits hhead (List.cons_ne_nil _ _)
    (List.forall_mem_singleton.mpr (.inl List.mem_cons_self)) rfl
  cases more with
  | nil =>
    obtain rfl : order = unit := (Int.sub_zero order).symm.trans hunit
    exact .exponent hfirst hvalue
  | cons second more =>
    exact .both hfirst (hdigits.of_mem_or_zero (List.cons_ne_nil _ _)
      fun c hc => .inl (List.mem_cons_of_mem first hc)) hvalue hunit

end Layouts

/-- A decimal is laid out with its digits, and perhaps with zeros behind them. -/
theorem exists_laysOut {d : Decimal} (h : d.digits ≠ 0) :
    ∃ k : Nat, k ≤ 16 ∧ LaysOut (d.digits * 10 ^ k) (d.exponent - k) d.chars := by
  have hdigits := isDigits_digitChars d.digits
  have hhead := head?_digitChars_ne_zero h
  have hvalue := digitsValue_digitChars d.digits
  have hsame := hvalue.trans (Nat.mul_one _).symm
  rw [Decimal.chars]
  generalize digitChars d.digits = digits at hdigits hhead hvalue hsame ⊢
  have hpos := List.length_pos_of_ne_nil hdigits.ne_nil
  dsimp only
  split_ifs with hplace hsmall hlong
  · exact ⟨0, Nat.zero_le _, laysOut_small hdigits _ hsame (by omega)⟩
  · exact ⟨(digits.length + d.exponent).toNat - digits.length + 1, by omega,
      laysOut_large hdigits hhead _ (congrArg (· * _) hvalue) (by omega)⟩
  · exact ⟨0, Nat.zero_le _, laysOut_inside hdigits hhead (by omega) (by omega) hsame (by omega)⟩
  · obtain ⟨first, more, rfl⟩ := List.exists_cons_of_ne_nil hdigits.ne_nil
    refine ⟨0, Nat.zero_le _, laysOut_exponent hdigits hhead hsame ?_⟩
    rw [List.length_cons]
    omega

/-- A decimal is written with digits in front of the point, and perhaps a fraction and an
exponent. -/
theorem LaysOut.exists_parts {value : Nat} {unit : Int} {cs : List Char} (h : LaysOut value unit cs) :
    ∃ whole fraction exponent, IsWhole whole ∧ IsFraction fraction ∧ IsExponent exponent ∧
      cs = whole ++ fraction ++ exponent := by
  cases h with
  | places hwhole hplaces =>
    exact ⟨_, _, [], hwhole, .digits hplaces, .none, (List.append_nil _).symm⟩
  | exponent hwhole =>
    exact ⟨_, [], _, hwhole, .none, isExponent_exponentChars unit, by rw [List.append_nil]⟩
  | both hwhole hplaces =>
    exact ⟨_, _, _, hwhole, .digits hplaces, isExponent_exponentChars _, by
      rw [List.append_assoc, List.cons_append]⟩

/-! ## Floating point numbers -/

/-- A number that is finite is written as a number. -/
theorem isNumber_floatChars (negative : Bool) (magnitude : Number.Dyadic) :
    IsNumber (floatChars (.finite negative magnitude)) := by
  have hsign : (if negative then ['-'] else []) ∈ [[], ['-']] := by cases negative <;> simp
  show IsNumber (Binary64.chars (.finite negative magnitude))
  rw [Binary64.chars]
  generalize (if negative then ['-'] else []) = sign at hsign ⊢
  split_ifs with hzero
  · have hfraction : IsFraction ['.', '0'] := .digits isDigits_zero
    simpa using IsNumber.parts hsign .zero hfraction .none
  · obtain ⟨k, -, hlaysOut⟩ := exists_laysOut (Decimal.digits_shortest_ne_zero hzero)
    obtain ⟨whole, fraction, exponent, hwhole, hfraction, hexponent, hchars⟩ := hlaysOut.exists_parts
    rw [hchars, ← List.append_assoc, ← List.append_assoc]
    exact .parts hsign hwhole hfraction hexponent

/-! ## Strings -/

theorem digitChar_mem_hexDigits : ∀ d < 16, Nat.digitChar d ∈ hexDigits := by
  decide

theorem isCharacter_escapedChar (c : Char) : IsCharacter (escapedChar c) := by
  unfold escapedChar
  split_ifs with hquote hback hline hreturn htab hbackspace hfeed hcontrol
  · exact .short (by decide)
  · exact .short (by decide)
  · exact .short (by decide)
  · exact .short (by decide)
  · exact .short (by decide)
  · exact .short (by decide)
  · exact .short (by decide)
  · rw [hexChars_of_lt c.toNat hcontrol]
    exact .unit (by decide) (by decide) (digitChar_mem_hexDigits _ (by omega))
      (digitChar_mem_hexDigits _ (by omega))
  · exact .plain (by omega) hquote hback

theorem isString_textChars (s : String) : IsString (textChars s) := by
  rw [textChars, List.flatMap_def]
  refine .quoted fun part hpart => ?_
  obtain ⟨c, -, rfl⟩ := List.mem_map.mp hpart
  exact isCharacter_escapedChar c

/-! ## Values -/

/-- Every floating point number in a value, at any depth, is finite. -/
inductive Finite : Json → Prop
  | null : Finite null
  | bool (b : Bool) : Finite (bool b)
  | int (n : Int) : Finite (int n)
  | float (negative : Bool) (magnitude : Number.Dyadic) :
    Finite (float (.finite negative magnitude))
  | text (s : String) : Finite (text s)
  | list {items : List Json} : (∀ item ∈ items, Finite item) → Finite (list items)
  | object {members : List (String × Json)} :
    (∀ member ∈ members, Finite member.2) → Finite (object members)

theorem isSpace_nil : IsSpace [] := by simp [IsSpace]

theorem isSpace_newLine (level : Nat) : IsSpace (newLine level) := by
  intro c hc
  rcases List.mem_cons.mp hc with rfl | hc
  · simp
  · simp [List.eq_of_mem_replicate hc]

theorem isItems_prettyItems {level : Nat} {item : Json} {items : List Json}
    (h : ∀ j ∈ item :: items, IsValue (prettyChars level j)) {before after : List Char}
    (hbefore : IsSpace before) (hafter : IsSpace after) :
    IsItems (before ++ prettyItems level (item :: items) ++ after) := by
  induction items generalizing item before with
  | nil => exact .last (.spaced hbefore (h item List.mem_cons_self) hafter)
  | cons next items ih =>
    rw [List.forall_mem_cons] at h
    rw [prettyItems_cons_cons]
    have hfirst := IsElement.spaced hbefore h.1 isSpace_nil
    simpa using IsItems.more hfirst (ih h.2 (isSpace_newLine level))

theorem isMember_member {level : Nat} (key : String) {value : Json}
    (h : IsValue (prettyChars level value)) {before after : List Char} (hbefore : IsSpace before)
    (hafter : IsSpace after) :
    IsMember (before ++ (textChars key ++ ':' :: ' ' :: (prettyChars level value ++ after))) := by
  have hspace : IsSpace [' '] := by simp [IsSpace]
  simpa using IsMember.spaced hbefore (isString_textChars key) isSpace_nil
    (.spaced hspace h hafter)

theorem isMembers_prettyMembers {level : Nat} {member : String × Json}
    {members : List (String × Json)}
    (h : ∀ m ∈ member :: members, IsValue (prettyChars level m.2)) {before after : List Char}
    (hbefore : IsSpace before) (hafter : IsSpace after) :
    IsMembers (before ++ prettyMembers level (member :: members) ++ after) := by
  induction members generalizing member before with
  | nil =>
    obtain ⟨key, value⟩ := member
    have hmember := isMember_member key (h _ List.mem_cons_self) hbefore hafter
    simpa [prettyMembers] using IsMembers.last hmember
  | cons next members ih =>
    obtain ⟨key, value⟩ := member
    rw [List.forall_mem_cons] at h
    rw [prettyMembers_cons_cons]
    have hfirst := isMember_member key h.1 hbefore isSpace_nil
    simpa using IsMembers.more hfirst (ih h.2 (isSpace_newLine level))

/-- A value whose numbers are finite is written as a value of the grammar. -/
theorem Finite.isValue {j : Json} (h : Finite j) (level : Nat) : IsValue (prettyChars level j) := by
  induction h generalizing level with
  | null => exact .null
  | bool b =>
    cases b with
    | true => exact .true
    | false => exact .false
  | int n => exact .number (isNumber_intChars n)
  | float negative magnitude => exact .number (isNumber_floatChars negative magnitude)
  | text s => exact .string (isString_textChars s)
  | @list items _ ih =>
    cases items with
    | nil => exact .emptyList isSpace_nil
    | cons item items =>
      have hitems := isItems_prettyItems (fun j hj => ih j hj (level + 1))
        (isSpace_newLine (level + 1)) (isSpace_newLine level)
      simpa [prettyChars] using IsValue.list hitems
  | @object members _ ih =>
    cases members with
    | nil => exact .emptyObject isSpace_nil
    | cons member members =>
      have hmembers := isMembers_prettyMembers (fun m hm => ih m hm (level + 1))
        (isSpace_newLine (level + 1)) (isSpace_newLine level)
      simpa [prettyChars] using IsValue.object hmembers

end DocSchema.Json
