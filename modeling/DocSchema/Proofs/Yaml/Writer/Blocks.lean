import DocSchema.Proofs.Yaml.Layout
import DocSchema.Proofs.Yaml.Writer.Page
import DocSchema.Yaml.Writer

/-!
# Writing blocks

What is written of lists and mappings is laid out as a reader expects it. The scalars in them are
given: this module carries what is known of them up to whole values.

## Main definitions

* `Writes`, `WritesKey`: what is written of a value is read to it

## Main results

* `writes_list`, `writes_map`: lists and mappings from their parts
-/

namespace DocSchema.Yaml.Writer

/-- What is written of a value behind a sign of a block at a column is read to it. Behind a sign that
is compact a block starts on the line, and behind the colon of a key on another one. -/
def Writes (compact : Bool) (n : Nat) (v : Value) : Prop :=
  ∀ (place : Place) (p : Page), place.indent = some n → (compact = false → place.inMap = true) →
    p.BehindSign compact n →
      ∃ cs, (value place v p).Closes (p.chars ++ cs) ∧ ReadsNode compact n cs v

/-- What is written of a scalar behind a sign of a block at a column is read to it. -/
def WritesScalar (n : Nat) (w : WrittenScalar) (v : Value) : Prop :=
  ∀ p : Page, p.afterSpace = false →
    ∃ cs, (p.scalar (n + 2) false w).Closes (p.chars ++ cs) ∧ ReadsScalar n cs v

/-- What is written of a scalar in front of a colon, in a mapping at a column, is read to it. -/
def WritesKey (n : Nat) (w : WrittenScalar) (v : Value) : Prop :=
  ∀ p : Page, p.afterSpace = true →
    ∃ cs, (p.scalar (n + 2) true w).chars = p.chars ++ cs ∧ ReadsKey cs v

/-- The key of a mapping at a column is read back, whether it needs a question mark or not. -/
def WritesEntryKey (n : Nat) (k : Value) : Prop :=
  ∃ w, scalar? k = some w ∧ if w.isSimpleKey then WritesKey n w k else WritesScalar n w k

theorem value_of_scalar? {v : Value} {w : WrittenScalar} (h : scalar? v = some w) (place : Place)
    (p : Page) : value place v p = p.scalar place.scalarIndent false w := by
  cases v <;> first
    | (rw [value.eq_def]; dsimp only; rw [h])
    | cases h

theorem scalarIndent_eq {place : Place} {n : Nat} (h : place.indent = some n) :
    place.scalarIndent = n + 2 := by
  rw [Place.scalarIndent, h]
  rfl

theorem mapIndent_eq {place : Place} {n : Nat} (h : place.indent = some n) :
    place.mapIndent = n + 2 := by
  rw [Place.mapIndent, h]
  rfl

/-- Scalars. -/
theorem WritesScalar.writes {n : Nat} {v : Value} {w : WrittenScalar} (hw : scalar? v = some w)
    (h : WritesScalar n w v) (compact : Bool) : Writes compact n v := by
  intro place p hplace _ hp
  rw [value_of_scalar? hw, scalarIndent_eq hplace]
  obtain ⟨cs, hcloses, hreads⟩ := h p hp.afterSpace
  exact ⟨cs, hcloses, hreads.node compact⟩

/-- A key without a question mark is short and has one line. -/
theorem length_of_isSimpleKey {w : WrittenScalar} (h : w.isSimpleKey = true) :
    w.text.toList.length < 128 := by
  simp only [WrittenScalar.isSimpleKey, Bool.and_eq_true, decide_eq_true_eq] at h
  omega

theorem not_mem_of_isMultiline {cs : List Char} (h : isMultiline cs = false) : '\n' ∉ cs := by
  intro hmem
  have hmulti : isMultiline cs = true := List.any_eq_true.mpr ⟨'\n', hmem, rfl⟩
  rw [h] at hmulti
  cases hmulti

/-! ## Lists -/

/-- The items of a list from the start of a line on. -/
theorem exists_readsItems {c : Nat} {item : Value} {items : List Value}
    (h : ∀ v ∈ item :: items, Writes true c v) {p : Page} (hp : p.StartsLine c) :
    ∃ cs, (itemLines c (item :: items) p).Closes (p.chars ++ cs) ∧
      ReadsBlockItems c cs (item :: items) := by
  induction items generalizing item p with
  | nil =>
    obtain ⟨hsign, hchars⟩ := hp.sign '-'
    obtain ⟨cs, hcloses, hreads⟩ := h item List.mem_cons_self { indent := some c } _ rfl nofun hsign
    refine ⟨'-' :: cs, ?_, hreads.item⟩
    rw [itemLines, hp.indentTo_self]
    rwa [hchars, List.append_assoc, List.singleton_append] at hcloses
  | cons next items ih =>
    obtain ⟨hsign, hchars⟩ := hp.sign '-'
    obtain ⟨cs, hcloses, hreads⟩ := h item List.mem_cons_self { indent := some c } _ rfl nofun hsign
    obtain ⟨hline, hout⟩ := hcloses.indentTo c
    obtain ⟨more, hmore, hmoreReads⟩ := ih (fun v hv => h v (List.mem_cons_of_mem _ hv)) hline
    refine ⟨_, ?_, hreads.moreItems hmoreReads⟩
    rw [itemLines, hp.indentTo_self]
    have hsame : itemLines c (next :: items) (Page.indentTo c
        (value { indent := some c } item (p.sign ['-'] true false true))) =
        itemLines c (next :: items) (value { indent := some c } item (p.sign ['-'] true false true)) := by
      rw [itemLines, itemLines, hline.indentTo_self]
    rw [hsame, hout, hchars] at hmore
    simpa only [List.append_assoc, List.cons_append, List.nil_append] using hmore

theorem brackets_closes {opening closing : Char} {p : Page} (h : p.afterSpace = false) :
    (brackets opening closing p).Closes (p.chars ++ [' ', opening, closing]) := by
  refine .inl ⟨?_, ?_⟩
  · show ((p.atIndent && false) && false) = false
    rw [Bool.and_false]
  · rw [brackets, Page.chars_sign, Page.chars_sign, h, Bool.not_false, Bool.or_true]
    simp

/-- A list without items. -/
theorem writes_emptyList (compact : Bool) (n : Nat) : Writes compact n (.list []) := by
  intro place p hplace hmap hp
  refine ⟨_, ?_, readsNode_emptyList compact n⟩
  rw [value]
  exact brackets_closes hp.afterSpace

theorem itemLines_indentTo {c : Nat} {item : Value} {items : List Value} {p : Page}
    (h : (p.indentTo c).StartsLine c) :
    itemLines c (item :: items) (p.indentTo c) = itemLines c (item :: items) p := by
  rw [itemLines, itemLines, h.indentTo_self]

/-- A list on the line of its sign, whose items are indented. -/
theorem writes_list {n : Nat} {items : List Value} (h : ∀ v ∈ items, Writes true (n + 2) v) :
    Writes true n (.list items) := by
  cases items with
  | nil => exact writes_emptyList true n
  | cons item items =>
    intro place p hplace _ hp
    have hcolumn : place.listIndent p = n + 2 := by
      rw [Place.listIndent, hp.atIndent, Bool.not_true, Bool.and_false, if_neg Bool.false_ne_true,
        mapIndent_eq hplace]
    obtain ⟨hline, hout⟩ := hp.indentTo_compact
    obtain ⟨cs, hcloses, hreads⟩ := exists_readsItems h hline
    refine ⟨_, ?_, hreads.compact⟩
    rw [value, List.isEmpty_cons, if_neg Bool.false_ne_true, hcolumn]
    rwa [itemLines_indentTo hline, hout, List.append_assoc, List.singleton_append] at hcloses

/-- A list that is the value of a key, whose items are not indented. -/
theorem writes_flatList {n : Nat} {items : List Value} (h : ∀ v ∈ items, Writes true n v) :
    Writes false n (.list items) := by
  cases items with
  | nil => exact writes_emptyList false n
  | cons item items =>
    intro place p hplace hmap hp
    have hcolumn : place.listIndent p = n := by
      rw [Place.listIndent, hp.atIndent, hmap rfl, hplace]
      rfl
    obtain ⟨hline, hout⟩ := hp.indentTo n
    obtain ⟨cs, hcloses, hreads⟩ := exists_readsItems h hline
    refine ⟨_, ?_, hreads.flat⟩
    rw [value, List.isEmpty_cons, if_neg Bool.false_ne_true, hcolumn]
    rwa [itemLines_indentTo hline, hout, List.append_assoc, List.cons_append] at hcloses

/-! ## Mappings -/

/-- The page behind the colon of a key. -/
def behindKey (c : Nat) (k : Value) (p : Page) : Page :=
  match simpleKey? k with
  | some w => (p.scalar (c + 2) true w).sign [':'] false false false
  | none =>
    let p := value { indent := some c, inMap := true } k (p.sign ['?'] true false true)
    (p.indentTo c).sign [':'] true false true

theorem entryLines_cons (c : Nat) (k v : Value) (entries : List (Value × Value)) (p : Page) :
    entryLines c ((k, v) :: entries) p =
      entryLines c entries
        (value { indent := some c, inMap := true } v (behindKey c k (p.indentTo c))) := by
  rw [entryLines, behindKey]
  cases simpleKey? k <;> rfl

/-- A simple key has its colon on its line. -/
theorem WritesKey.exists_behindKey {c : Nat} {w : WrittenScalar} {k : Value} (h : WritesKey c w k)
    (hsimple : simpleKey? k = some w) {p : Page} (hp : p.StartsLine c) :
    ∃ cs, (behindKey c k p).BehindSign false c ∧
      (behindKey c k p).chars = p.chars ++ (cs ++ [':']) ∧ ReadsKey cs k := by
  obtain ⟨cs, hchars, hreads⟩ := h p hp.afterSpace
  rw [behindKey, hsimple]
  refine ⟨cs, ⟨rfl, Bool.and_false _, nofun⟩, ?_, hreads⟩
  dsimp only
  rw [Page.chars_sign, hchars, Bool.not_false, Bool.or_true, if_pos rfl, List.append_assoc]

/-- Another key stands behind a question mark, and has its colon on the next line. -/
theorem WritesScalar.exists_behindKey {c : Nat} {w : WrittenScalar} {k : Value}
    (h : WritesScalar c w k) (hw : scalar? k = some w) (hsimple : simpleKey? k = none) {p : Page}
    (hp : p.StartsLine c) :
    ∃ cs, (behindKey c k p).BehindSign true c ∧
      (behindKey c k p).chars =
        p.chars ++ '?' :: (cs ++ '\n' :: (List.replicate c ' ' ++ [':'])) ∧
      ReadsScalar c cs k := by
  obtain ⟨hquestion, hqchars⟩ := hp.sign '?'
  obtain ⟨cs, hcloses, hreads⟩ := h _ hquestion.afterSpace
  obtain ⟨hline, hout⟩ := hcloses.indentTo c
  obtain ⟨hcolon, hcchars⟩ := hline.sign ':'
  rw [behindKey, hsimple]
  dsimp only
  rw [value_of_scalar? hw]
  refine ⟨cs, hcolon, hcchars.trans ?_, hreads⟩
  rw [hout, hqchars]
  simp only [List.append_assoc, List.cons_append, List.nil_append]

/-- An entry from the start of a line on. -/
theorem exists_entryAt {c : Nat} {k v : Value} (hk : WritesEntryKey c k)
    (hv : Writes (simpleKey? k).isNone c v) {p : Page} (hp : p.StartsLine c) :
    ∃ cs, (value { indent := some c, inMap := true } v (behindKey c k p)).Closes (p.chars ++ cs) ∧
      EntryAt c cs k v := by
  obtain ⟨w, hw, hkey⟩ := hk
  by_cases hsimple : w.isSimpleKey = true
  · rw [if_pos hsimple] at hkey
    have hsimpleKey : simpleKey? k = some w := by
      rw [simpleKey?, hw]
      exact if_pos hsimple
    obtain ⟨kcs, hcolon, hchars, hkreads⟩ := hkey.exists_behindKey hsimpleKey hp
    rw [hsimpleKey] at hv
    obtain ⟨vcs, hcloses, hvreads⟩ :=
      hv { indent := some c, inMap := true } _ rfl (fun _ => rfl) hcolon
    refine ⟨kcs ++ ':' :: vcs, ?_, .inl ⟨kcs, vcs, rfl, hkreads, hvreads⟩⟩
    rw [hchars] at hcloses
    simpa only [List.append_assoc, List.cons_append, List.nil_append] using hcloses
  · rw [if_neg hsimple] at hkey
    have hsimpleKey : simpleKey? k = none := by
      rw [simpleKey?, hw]
      exact if_neg hsimple
    obtain ⟨kcs, hcolon, hchars, hkreads⟩ := hkey.exists_behindKey hw hsimpleKey hp
    rw [hsimpleKey] at hv
    obtain ⟨vcs, hcloses, hvreads⟩ := hv { indent := some c, inMap := true } _ rfl nofun hcolon
    refine ⟨_, ?_, .inr ⟨kcs, vcs, rfl, hkreads, hvreads⟩⟩
    rw [hchars] at hcloses
    simpa only [List.append_assoc, List.cons_append, List.nil_append] using hcloses

/-- The entries of a mapping from the start of a line on. -/
theorem exists_readsEntries {c : Nat} {entry : Value × Value} {entries : List (Value × Value)}
    (h : ∀ e ∈ entry :: entries, WritesEntryKey c e.1 ∧ Writes (simpleKey? e.1).isNone c e.2)
    {p : Page} (hp : p.StartsLine c) :
    ∃ cs, (entryLines c (entry :: entries) p).Closes (p.chars ++ cs) ∧
      ReadsBlockEntries c cs (entry :: entries) := by
  induction entries generalizing entry p with
  | nil =>
    obtain ⟨k, v⟩ := entry
    obtain ⟨hk, hv⟩ := h _ List.mem_cons_self
    obtain ⟨cs, hcloses, hentry⟩ := exists_entryAt hk hv hp
    refine ⟨cs, ?_, hentry.last⟩
    rwa [entryLines_cons, hp.indentTo_self, entryLines]
  | cons next entries ih =>
    obtain ⟨k, v⟩ := entry
    obtain ⟨hk, hv⟩ := h _ List.mem_cons_self
    obtain ⟨cs, hcloses, hentry⟩ := exists_entryAt hk hv hp
    obtain ⟨hline, hout⟩ := hcloses.indentTo c
    obtain ⟨more, hmore, hmoreReads⟩ := ih (fun e he => h e (List.mem_cons_of_mem _ he)) hline
    refine ⟨_, ?_, hentry.more hmoreReads⟩
    rw [entryLines_cons, hp.indentTo_self]
    rw [entryLines_cons, hline.indentTo_self, hout] at hmore
    rw [entryLines_cons]
    simpa only [List.append_assoc, List.cons_append, List.nil_append] using hmore

/-- A mapping whose keys and values are read back, and in which no key occurs twice. -/
theorem writes_map {n : Nat} {entries : List (Value × Value)}
    (hdistinct : Value.mapping entries = .map entries)
    (h : ∀ e ∈ entries,
      WritesEntryKey (n + 2) e.1 ∧ Writes (simpleKey? e.1).isNone (n + 2) e.2) (compact : Bool) :
    Writes compact n (.map entries) := by
  intro place p hplace hmap hp
  cases entries with
  | nil =>
    refine ⟨_, ?_, readsNode_emptyMap compact n⟩
    rw [value]
    exact brackets_closes hp.afterSpace
  | cons entry entries =>
    rw [value, List.isEmpty_cons, if_neg Bool.false_ne_true, mapIndent_eq hplace]
    have hsame : (p.indentTo (n + 2)).StartsLine (n + 2) →
        entryLines (n + 2) (entry :: entries) (p.indentTo (n + 2)) =
          entryLines (n + 2) (entry :: entries) p := by
      intro hline
      rw [entryLines_cons, entryLines_cons, hline.indentTo_self]
    cases compact with
    | true =>
      obtain ⟨hline, hout⟩ := hp.indentTo_compact
      obtain ⟨cs, hcloses, hreads⟩ := exists_readsEntries h hline
      refine ⟨_, ?_, hreads.compact hdistinct⟩
      rwa [hsame hline, hout, List.append_assoc, List.singleton_append] at hcloses
    | false =>
      obtain ⟨hline, hout⟩ := hp.indentTo (n + 2)
      obtain ⟨cs, hcloses, hreads⟩ := exists_readsEntries h hline
      refine ⟨_, ?_, hreads.indented (Nat.lt_add_of_pos_right (Nat.succ_pos 1)) hdistinct⟩
      rwa [hsame hline, hout, List.append_assoc, List.cons_append] at hcloses

end DocSchema.Yaml.Writer
