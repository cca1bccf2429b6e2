import DocSchema.Proofs.Yaml.Writer.Double
import DocSchema.Proofs.Yaml.Writer.Plain
import DocSchema.Proofs.Yaml.Writer.Single

/-!
# Writing texts

A text is written plain, between single quotes or between double quotes, and read back from each.
Between double quotes two things go wrong: a key may get too long with its escapes, and far to the
right an escape in front of a space may be cut off twice.

## Main results

* `writesScalar_text`, `writesKey_text`: texts are read back
-/

namespace DocSchema.Yaml.Writer

variable {s : String} {n : Nat}

/-- The scalar of a text. -/
def textScalar (s : String) : WrittenScalar := ⟨"str", s, false⟩

theorem style_text (isKey : Bool) : (textScalar s).style isKey ≠ .block := by
  rw [WrittenScalar.style]
  show (if _ then _ else if (false && _ && _) = true then _ else _) ≠ ScalarStyle.block
  rw [Bool.false_and, Bool.false_and, if_neg Bool.false_ne_true]
  split_ifs <;> rintro ⟨⟩

/-- A plain text is no number, time, truth value or null. -/
theorem ofPlain_of_style {isKey : Bool} (h : (textScalar s).style isKey = .plain) :
    Tag.ofPlain s = .text := by
  have htag := (style_eq_plain h).1
  rw [WrittenScalar.isImplicit, beq_iff_eq] at htag
  have hname : Tag.ofText (Tag.schemaText ++ "str") = .text := by decide
  exact htag.trans hname

/-- What has to hold of a text for it to be read back from between double quotes, with its further
lines at a column. -/
def KeepsText (indent : Nat) (s : String) : Prop :=
  (textScalar s).style false = .double → Page.Calm indent true s.toList

/-- What has to hold of a text for it to be read back as a key. -/
def KeepsKey (s : String) : Prop :=
  (textScalar s).style true = .double → (s.toList.flatMap spelled).length ≤ 1022

/-- Near enough to the left no text is lost. -/
theorem keepsText_of_lt {indent : Nat} (h : indent < Page.width) (s : String) : KeepsText indent s :=
  fun _ => .inl h

/-- A short key does not get too long with its escapes. -/
theorem keepsKey_of_length_le (h : s.length ≤ 102) : KeepsKey s := by
  intro _
  have hle := length_flatMap_spelled_le s.toList
  rw [String.length_toList] at hle
  omega

theorem writesScalar_text (h : KeepsText (n + 2) s) : WritesScalar n (textScalar s) (.text s) := by
  cases hstyle : (textScalar s).style false with
  | plain =>
    have htag : Tag.ofPlain (textScalar s).text = .text := ofPlain_of_style hstyle
    exact writesScalar_plain hstyle rfl (by rw [htag]; rfl) (by rw [htag]; rfl)
  | single => exact writesScalar_single hstyle rfl
  | double => exact writesScalar_double (h hstyle) hstyle rfl
  | block => exact absurd hstyle (style_text false)

theorem writesKey_text (h : KeepsKey s) (hsimple : (textScalar s).isSimpleKey = true) :
    WritesKey n (textScalar s) (.text s) := by
  cases hstyle : (textScalar s).style true with
  | plain =>
    have htag : Tag.ofPlain (textScalar s).text = .text := ofPlain_of_style hstyle
    exact writesKey_plain hstyle hsimple rfl (by rw [htag]; rfl) (by rw [htag]; rfl)
  | single => exact writesKey_single hstyle rfl hsimple
  | double => exact writesKey_double hstyle rfl (h hstyle)
  | block => exact absurd hstyle (style_text true)

end DocSchema.Yaml.Writer
