import DocSchema.Text.Base64
import Mathlib.Data.List.Basic

/-!
# Reading base 64 back

Bytes are written in groups of three, and a group is read back from its digits. Reading passes over
line ends, so the digits may be broken into lines.

## Main results

* `decodeBase64?_lines`: bytes are read back from the lines of their digits
-/

namespace DocSchema.Text

/-! ## Digits -/

theorem base64Digit_of_lt : ∀ n < 64, base64Value? (base64Digit n) = some n ∧ base64Digit n ≠ '=' ∧
    32 < (base64Digit n).toNat ∧ (base64Digit n).toNat ≤ 126 := by
  decide +kernel

theorem base64Digit_mod (n : Nat) : base64Digit (n % 64) = base64Digit n := by
  rw [base64Digit, base64Digit, Nat.mod_mod]

theorem base64Value?_base64Digit (n : Nat) : base64Value? (base64Digit n) = some (n % 64) := by
  rw [← base64Digit_mod]
  exact (base64Digit_of_lt _ (Nat.mod_lt n (by decide))).1

theorem base64Digit_ne_pad (n : Nat) : base64Digit n ≠ '=' := by
  rw [← base64Digit_mod]
  exact (base64Digit_of_lt _ (Nat.mod_lt n (by decide))).2.1

theorem visible_base64Digit (n : Nat) :
    32 < (base64Digit n).toNat ∧ (base64Digit n).toNat ≤ 126 := by
  rw [← base64Digit_mod]
  exact (base64Digit_of_lt _ (Nat.mod_lt n (by decide))).2.2

/-- Bytes are written with visible characters. -/
theorem visible_encodeBase64 (bytes : List UInt8) :
    ∀ c ∈ encodeBase64 bytes, 32 < c.toNat ∧ c.toNat ≤ 126 := by
  induction bytes using encodeBase64.induct with
  | case1 a b c rest ih =>
    rw [encodeBase64]
    simp only [List.forall_mem_cons]
    exact ⟨visible_base64Digit _, visible_base64Digit _, visible_base64Digit _,
      visible_base64Digit _, ih⟩
  | case2 a b =>
    rw [encodeBase64]
    simp only [List.forall_mem_cons]
    exact ⟨visible_base64Digit _, visible_base64Digit _, visible_base64Digit _, by decide, nofun⟩
  | case3 a =>
    rw [encodeBase64]
    simp only [List.forall_mem_cons]
    exact ⟨visible_base64Digit _, visible_base64Digit _, by decide, by decide, nofun⟩
  | case4 => exact nofun

theorem encodeBase64_ne_nil {bytes : List UInt8} (h : bytes ≠ []) : encodeBase64 bytes ≠ [] := by
  match bytes, h with
  | [_], _ => exact List.cons_ne_nil _ _
  | [_, _], _ => exact List.cons_ne_nil _ _
  | _ :: _ :: _ :: _, _ => exact List.cons_ne_nil _ _

/-! ## Groups -/

variable {count bits pads : Nat} {read : List UInt8} {rest : List Char}

/-- A digit of a group is taken by its value. -/
theorem decodeGroups_digit (n : Nat) :
    decodeGroups count bits pads read (base64Digit n :: rest) =
      match count with
      | 0 => decodeGroups 1 (n % 64) 0 read rest
      | 1 => decodeGroups 2 (n % 64 % 16) 0 ((bits * 4 + n % 64 / 16).toUInt8 :: read) rest
      | 2 => decodeGroups 3 (n % 64 % 4) 0 ((bits * 16 + n % 64 / 4).toUInt8 :: read) rest
      | _ => decodeGroups 0 0 0 ((bits * 64 + n % 64).toUInt8 :: read) rest := by
  obtain _ | _ | _ | count := count <;>
    simp only [decodeGroups, if_neg (base64Digit_ne_pad n), base64Value?_base64Digit]

theorem toUInt8_eq {n : Nat} {a : UInt8} (h : n = a.toNat) : n.toUInt8 = a := by
  rw [h]
  exact UInt8.ofNat_toNat

/-- Bytes are read back on top of those that have been read before. -/
theorem decodeGroups_encodeBase64 (bytes read : List UInt8) :
    decodeGroups 0 0 0 read (encodeBase64 bytes) = some (read.reverse ++ bytes) := by
  induction bytes using encodeBase64.induct generalizing read with
  | case1 a b c rest ih =>
    have ha := a.toNat_lt
    have hb := b.toNat_lt
    have hc := c.toNat_lt
    rw [encodeBase64]
    generalize hn : (a.toNat * 256 + b.toNat) * 256 + c.toNat = n
    have hfirst : (n / 262144 % 64 * 4 + n / 4096 % 64 / 16).toUInt8 = a := toUInt8_eq (by omega)
    have hsecond : (n / 4096 % 64 % 16 * 16 + n / 64 % 64 / 4).toUInt8 = b := toUInt8_eq (by omega)
    have hthird : (n / 64 % 64 % 4 * 64 + n % 64).toUInt8 = c := toUInt8_eq (by omega)
    simp only [decodeGroups_digit, hfirst, hsecond, hthird, ih, List.reverse_cons,
      List.append_assoc, List.cons_append, List.nil_append]
  | case2 a b =>
    have ha := a.toNat_lt
    have hb := b.toNat_lt
    rw [encodeBase64]
    generalize hn : a.toNat * 256 + b.toNat = n
    have hfirst : (n / 1024 % 64 * 4 + n / 16 % 64 / 16).toUInt8 = a := toUInt8_eq (by omega)
    have hsecond : (n / 16 % 64 % 16 * 16 + n * 4 % 64 / 4).toUInt8 = b := toUInt8_eq (by omega)
    simp only [decodeGroups_digit, hfirst, hsecond]
    simp [decodeGroups]
  | case3 a =>
    have ha := a.toNat_lt
    have hfirst : (a.toNat / 4 % 64 * 4 + a.toNat * 16 % 64 / 16).toUInt8 = a :=
      toUInt8_eq (by omega)
    rw [encodeBase64]
    simp only [decodeGroups_digit, hfirst]
    simp [decodeGroups]
  | case4 => simp [encodeBase64, decodeGroups]

/-! ## Lines -/

/-- Line feeds are passed over. -/
theorem decodeGroups_filter (cs : List Char) :
    decodeGroups count bits pads read (cs.filter (· != '\n')) =
      decodeGroups count bits pads read cs := by
  induction cs generalizing count bits pads read with
  | nil => rfl
  | cons c cs ih =>
    by_cases hc : c = '\n'
    · subst hc
      rw [List.filter_cons_of_neg (by decide), ih, decodeGroups, if_neg (by decide)]
      rfl
    · have hkeep : (c != '\n') = true := bne_iff_ne.mpr hc
      rw [List.filter_cons, hkeep, if_pos rfl, decodeGroups, decodeGroups]
      simp only [ih]

theorem filter_lines {lines : List (List Char)} (h : ∀ l ∈ lines, '\n' ∉ l) :
    (lines.flatMap (· ++ ['\n'])).filter (· != '\n') = lines.flatten := by
  induction lines with
  | nil => rfl
  | cons l lines ih =>
    rw [List.forall_mem_cons] at h
    have hl : l.filter (· != '\n') = l := List.filter_eq_self.mpr fun c hc =>
      bne_iff_ne.mpr fun heq => h.1 (heq ▸ hc)
    rw [List.flatMap_cons, List.filter_append, List.filter_append, hl, ih h.2, List.flatten_cons,
      List.filter_cons_of_neg (by decide), List.filter_nil, List.append_nil]

/-- Bytes are read back from the lines of their digits. -/
theorem decodeBase64?_lines {bytes : List UInt8} {lines : List (List Char)}
    (h : lines.flatten = encodeBase64 bytes) (hlines : ∀ l ∈ lines, '\n' ∉ l) :
    decodeBase64? (lines.flatMap (· ++ ['\n'])) = some bytes := by
  rw [decodeBase64?, ← decodeGroups_filter, filter_lines hlines, h, decodeGroups_encodeBase64]
  rfl

end DocSchema.Text
