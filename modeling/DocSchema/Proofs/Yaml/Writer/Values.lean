import DocSchema.Proofs.Yaml.LongKeys
import DocSchema.Proofs.Yaml.Proper
import DocSchema.Proofs.Yaml.Writer.Bytes
import DocSchema.Proofs.Yaml.Writer.Floats
import DocSchema.Proofs.Yaml.Writer.Texts

/-!
# Writing values

A value that can be read is read back from what is written of it, unless one of three things is
lost on the way: integers that are too long, keys that get too long with their escapes, and far to
the right texts with an escape in front of a space. What is far to the right depends on the column,
so it is said of values together with the column of their contents. Tuples and sets are written as
lists and mappings with tags, and they are left out here.

## Main definitions

* `KeptScalar`, `Kept`: values of which nothing is lost

## Main results

* `Kept.writes`: what is written of a value is read to it
* `read_write`: a document is read back from its text
* `read_write_longKey`: a key that gets too long is not
-/

namespace DocSchema.Yaml.Writer

open Number (Binary64 digitChars)

/-! ## Scalars -/

/-- A scalar that is not lost, given which texts are not. -/
inductive KeptScalar (keeps : String → Prop) : Value → Prop
  | null : KeptScalar keeps .null
  | bool (b : Bool) : KeptScalar keeps (.bool b)
  | int {n : Int} : (digitChars n.natAbs).length ≤ 4300 → KeptScalar keeps (.int n)
  | float (x : Binary64) : KeptScalar keeps (.float x)
  | text {s : String} : keeps s → KeptScalar keeps (.text s)
  | date (d : Date) : KeptScalar keeps (.date d)
  | datetime (t : DateTime) : KeptScalar keeps (.datetime t)
  | bytes (content : List UInt8) : KeptScalar keeps (.bytes content)

/-- A text or bytes may be written in several ways, everything else is plain. -/
theorem KeptScalar.cases_style {keeps : String → Prop} {v : Value} (h : KeptScalar keeps v)
    (hproper : v.Proper) :
    (∃ w, scalar? v = some w ∧ WrittenPlain w v) ∨ (∃ s, v = .text s ∧ keeps s) ∨
      ∃ content, v = .bytes content := by
  cases h with
  | null => exact .inl ⟨_, rfl, writtenPlain_null⟩
  | bool b => exact .inl ⟨_, rfl, writtenPlain_bool b⟩
  | int h => exact .inl ⟨_, rfl, writtenPlain_int h⟩
  | float x =>
    cases hproper with
    | float hx => exact .inl ⟨_, rfl, writtenPlain_float hx⟩
  | text h => exact .inr (.inl ⟨_, rfl, h⟩)
  | date d =>
    cases hproper with
    | date hd => exact .inl ⟨_, rfl, writtenPlain_date hd⟩
  | datetime t =>
    cases hproper with
    | datetime ht => exact .inl ⟨_, rfl, writtenPlain_datetime ht⟩
  | bytes content => exact .inr (.inr ⟨content, rfl⟩)

theorem KeptScalar.exists_writesScalar {n : Nat} {v : Value}
    (h : KeptScalar (KeepsText (n + 2)) v) (hproper : v.Proper) :
    ∃ w, scalar? v = some w ∧ WritesScalar n w v := by
  obtain ⟨w, hw, hplain⟩ | ⟨s, rfl, hkeeps⟩ | ⟨content, rfl⟩ := h.cases_style hproper
  · exact ⟨w, hw, hplain.writesScalar n⟩
  · exact ⟨textScalar s, rfl, writesScalar_text hkeeps⟩
  · exact ⟨bytesScalar content, rfl, writesScalar_bytes content n⟩

/-- What has to hold of a text that is a key. -/
def KeepsEntryKey (indent : Nat) (s : String) : Prop :=
  if (textScalar s).isSimpleKey then KeepsKey s else KeepsText indent s

/-- Near enough to the left no short key is lost. -/
theorem keepsEntryKey_of_length_le {indent : Nat} {s : String} (hindent : indent < Page.width)
    (h : s.length ≤ 102) : KeepsEntryKey indent s := by
  rw [KeepsEntryKey]
  split_ifs
  · exact keepsKey_of_length_le h
  · exact keepsText_of_lt hindent s

theorem KeptScalar.writesEntryKey {n : Nat} {k : Value}
    (h : KeptScalar (KeepsEntryKey (n + 2)) k) (hproper : k.Proper) : WritesEntryKey n k := by
  obtain ⟨w, hw, hplain⟩ | ⟨s, rfl, hkeeps⟩ | ⟨content, rfl⟩ := h.cases_style hproper
  · refine ⟨w, hw, ?_⟩
    split_ifs with hsimple
    · exact hplain.writesKey n hsimple
    · exact hplain.writesScalar n
  · refine ⟨textScalar s, rfl, ?_⟩
    rw [KeepsEntryKey] at hkeeps
    split_ifs at hkeeps ⊢ with hsimple
    · exact writesKey_text hkeeps hsimple
    · exact writesScalar_text hkeeps
  · exact writesEntryKey_bytes content n

/-! ## Values -/

/-- A value of which nothing is lost with its contents at a column. The items of a list that is the
value of a key are not indented: such a list is flat. -/
inductive Kept : (flat : Bool) → (column : Nat) → Value → Prop
  | scalar {flat : Bool} {column : Nat} {v : Value} : KeptScalar (KeepsText (max column 2)) v →
    Kept flat column v
  | list {column : Nat} {items : List Value} : (∀ v ∈ items, Kept false (column + 2) v) →
    Kept false column (.list items)
  | flatList {column : Nat} {items : List Value} : (∀ v ∈ items, Kept false column v) →
    Kept true column (.list items)
  | map {flat : Bool} {column : Nat} {entries : List (Value × Value)} :
    (∀ e ∈ entries, KeptScalar (KeepsEntryKey (column + 2)) e.1) →
    (∀ e ∈ entries, Kept (simpleKey? e.1).isSome (column + 2) e.2) →
    Kept flat column (.map entries)

/-- What is written of a value behind a sign is read to it. -/
theorem Kept.writes {flat : Bool} {column : Nat} {v : Value} (h : Kept flat column v)
    (hproper : v.Proper) {n : Nat} (hcolumn : column = n + 2) : Writes (!flat) n v := by
  induction h generalizing n with
  | @scalar flat column v hscalar =>
    have hmax : max column 2 = n + 2 := by omega
    rw [hmax] at hscalar
    obtain ⟨w, hw, hwrites⟩ := hscalar.exists_writesScalar hproper
    exact hwrites.writes hw (!flat)
  | list _ ih =>
    subst hcolumn
    cases hproper with
    | list hitems => exact writes_list fun v hv => ih v hv (hitems v hv) rfl
  | flatList _ ih =>
    cases hproper with
    | list hitems => exact writes_flatList fun v hv => ih v hv (hitems v hv) hcolumn
  | map hkeys _ ih =>
    subst hcolumn
    have hdistinct := hproper.mapping_eq
    cases hproper with
    | map _ hproperKeys hproperValues =>
      refine writes_map hdistinct (fun e he => ⟨(hkeys e he).writesEntryKey (hproperKeys e he), ?_⟩) _
      have hwrites := ih e he (hproperValues e he) rfl
      rwa [Option.not_isSome] at hwrites

/-! ## Documents -/

/-- A document that is no plain text ends with its last line. -/
theorem write_eq {v : Value} {out : List Char} (hopen : isOpenEnded v = false)
    (h : (value {} v {}).Closes out) : write v = String.ofList (out ++ ['\n']) := by
  obtain ⟨-, hchars⟩ := h.indentTo 0
  rw [write, hopen]
  exact congrArg String.ofList hchars

/-- A plain document has a mark of its end. -/
theorem write_plain {v : Value} {w : WrittenScalar} {out : List Char} (hw : scalar? v = some w)
    (hstyle : w.style false = .plain) (h : (value {} v {}).Closes out) :
    write v = String.ofList (out ++ '\n' :: (endMark ++ ['\n'])) := by
  obtain ⟨hline, hchars⟩ := h.indentTo 0
  have hopen : isOpenEnded v = true := by
    rw [isOpenEnded, hw]
    exact beq_iff_eq.mpr hstyle
  rw [write, hopen, if_pos rfl, Page.text_eq]
  generalize (value {} v {}).indentTo 0 = p at hline hchars
  have hsign : (p.sign endMark true false false).chars = p.chars ++ endMark := by
    rw [Page.chars_sign, hline.afterSpace]
    rfl
  have hend := (Page.startsLine_indentTo (p := p.sign endMark true false false) (d := 0)
    (.inl (Bool.and_false _))).2
  refine congrArg String.ofList (hend.trans ?_)
  rw [hsign, hchars]
  simp

theorem read_write_plain {v : Value} {w : WrittenScalar} (hw : scalar? v = some w)
    (h : WrittenPlain w v) : read (write v) = .ok v := by
  have hstyle := h.style false
  obtain ⟨htext, hopens⟩ := isPlainText_of_canBePlain h.canBePlain
  obtain ⟨gap, out, hchars, hindent, hgap, hspells, -⟩ :=
    Page.exists_words 2 true true htext 0 _ (Nat.lt_succ_self _) (p := ({} : Page).inText) rfl
  cases hgap
  have hvalue : value {} v {} = Page.words 2 true true
      (Page.splitWords (w.text.toList.length + 1) w.text.toList) ({} : Page).inText := by
    rw [value_of_scalar? hw, scalar_plain hstyle]
    rfl
  have hcloses : (value {} v {}).Closes out := by
    rw [hvalue]
    exact .inl ⟨hindent, hchars⟩
  rw [write_plain hw hstyle hcloses]
  refine read_of_plain hspells hopens ?_
  rw [String.ofList_toList]
  exact Parser.yieldsKey_scalar h.isKey h.isScalar h.value

theorem read_write_bytes {content : List UInt8} (h : content ≠ []) :
    read (write (.bytes content)) = .ok (.bytes content) := by
  obtain ⟨line, lines, hlines, hpermitted, hread, hcloses⟩ := exists_lines h 1
  have hopen : isOpenEnded (.bytes content) = false := by
    show ((bytesScalar content).style false == .plain) = false
    rw [style_bytes h]
    rfl
  have hvalue : (value {} (.bytes content) {}).Closes (Lexer.taggedBlock 2 line lines) := by
    rw [value_of_scalar? (v := .bytes content) (w := bytesScalar content) rfl]
    exact hcloses {}
  rw [write_eq hopen hvalue]
  exact read_of_lines hlines hpermitted hread

/-- A document that is neither a text nor empty is read back. -/
theorem read_write {v : Value} (h : Kept false 0 v) (hproper : v.Proper) (htruthy : v.isTruthy = true)
    (htext : ∀ s, v ≠ .text s) : read (write v) = .ok v := by
  cases h with
  | scalar hscalar =>
    obtain ⟨w, hw, hplain⟩ | ⟨s, rfl, -⟩ | ⟨content, rfl⟩ := hscalar.cases_style hproper
    · exact read_write_plain hw hplain
    · exact absurd rfl (htext s)
    · refine read_write_bytes ?_
      rintro rfl
      cases htruthy
  | @list _ items hitems =>
    cases items with
    | nil => cases htruthy
    | cons item items =>
      cases hproper with
      | list hproperItems =>
        obtain ⟨cs, hcloses, hreads⟩ := exists_readsItems (c := 0)
          (fun v hv => (hitems v hv).writes (hproperItems v hv) rfl) (p := {}) ⟨rfl, rfl, rfl⟩
        have hvalue : value {} (.list (item :: items)) {} = itemLines 0 (item :: items) {} := by
          rw [value, List.isEmpty_cons, if_neg Bool.false_ne_true]
          rfl
        rw [← hvalue] at hcloses
        rw [write_eq rfl hcloses]
        exact read_of_items hreads
  | @map _ _ entries hkeys hvalues =>
    cases entries with
    | nil => cases htruthy
    | cons entry entries =>
      have hdistinct := hproper.mapping_eq
      cases hproper with
      | map _ hproperKeys hproperValues =>
        obtain ⟨cs, hcloses, hreads⟩ := exists_readsEntries (c := 0)
          (fun e he => ⟨(hkeys e he).writesEntryKey (hproperKeys e he), by
            have hwrites := (hvalues e he).writes (hproperValues e he) rfl
            rwa [Option.not_isSome] at hwrites⟩) (p := {}) ⟨rfl, rfl, rfl⟩
        have hvalue : value {} (.map (entry :: entries)) {} = entryLines 0 (entry :: entries) {} := by
          rw [value, List.isEmpty_cons, if_neg Bool.false_ne_true]
          rfl
        rw [← hvalue] at hcloses
        rw [write_eq rfl hcloses]
        exact read_of_entries hreads hdistinct

/-- A mapping whose key gets too long with its escapes is refused. -/
theorem read_write_longKey {s : String} {v : Value} (hsimple : (textScalar s).isSimpleKey = true)
    (hstyle : (textScalar s).style true = .double)
    (hlong : 1022 < (s.toList.flatMap spelled).length) (h : Kept true 2 v) (hproper : v.Proper) :
    read (write (.map [(.text s, v)])) = .error (.problem .misplacedValue) := by
  have hkey : simpleKey? (.text s) = some (textScalar s) := if_pos hsimple
  have hline : ({} : Page).StartsLine 0 := ⟨rfl, rfl, rfl⟩
  have hchars := chars_scalar_key (n := 0) (w := textScalar s) hstyle rfl hline.afterSpace
  obtain ⟨cs, hcloses, hreads⟩ := h.writes hproper rfl { indent := some 0, inMap := true }
    ((({} : Page).scalar 2 true (textScalar s)).sign [':'] false false false) rfl (fun _ => rfl)
    ⟨rfl, Bool.and_false _, nofun⟩
  have hvalue : value {} (.map [(.text s, v)]) {} = value { indent := some 0, inMap := true } v
      ((({} : Page).scalar 2 true (textScalar s)).sign [':'] false false false) := by
    rw [value, List.isEmpty_cons, if_neg Bool.false_ne_true, entryLines_cons, behindKey, hkey]
    rfl
  rw [Page.chars_sign, Bool.not_false, Bool.or_true, if_pos rfl, hchars] at hcloses
  rw [← hvalue] at hcloses
  rw [write_eq rfl hcloses]
  obtain ⟨hquoted, hprintable⟩ := readsQuoted_key s
  have hread := @read_longKey _ _ (cs ++ ['\n']) _ hquoted hprintable
    (by rw [List.length_cons, List.length_append, List.length_singleton]; omega)
    (endsWord_head?_append hreads.starts hreads.nonempty)
    (List.forall_mem_append.mpr ⟨hreads.permitted, List.forall_mem_singleton.mpr rfl⟩)
  have hassoc : ∀ key : List Char,
      ({} : Page).chars ++ key ++ [':'] ++ cs ++ ['\n'] = key ++ ':' :: (cs ++ ['\n']) := by
    intro key
    simp only [List.append_assoc, List.cons_append, List.nil_append]
    rfl
  rw [hassoc]
  exact hread

end DocSchema.Yaml.Writer
