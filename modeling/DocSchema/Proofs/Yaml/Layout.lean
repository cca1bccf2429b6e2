import DocSchema.Proofs.Yaml.Block
import DocSchema.Proofs.Yaml.BlockNodes

/-!
# Laid out blocks

Lists and mappings as they are laid out over lines: a block stands at a column, and a node stands
behind a sign of one. Behind a hyphen or a question mark a block may start on the line, behind the
colon of a key it starts on another line, where the items of a list need not be indented.

What is said of a text holds whatever line follows it, if that line is indented no more than the
text's surroundings.

## Main definitions

* `LexesBlock`, `LexesNode`: blocks and nodes are cut into tokens
* `ReadsBlockItems`, `ReadsBlockEntries`, `ReadsNode`: they are read to values

## Main results

* `LexesBlock.append`: items and entries one below the other
* `ReadsBlockItems.compact`, `ReadsBlockItems.flat`: where a list may stand
* `ReadsBlockEntries.compact`, `ReadsBlockEntries.indented`: where a mapping may stand
-/

namespace DocSchema.Yaml

open Lexer (Arrives Behind LexesKey LexesScalar Reaches closing closing_cons closing_eq_nil kept
  kept_cons kept_eq_self opened opening)
open DocSchema.Yaml.Parser (YieldsBlockEntries YieldsBlockItems YieldsKey YieldsNode)

-- Decisions about the members of a list go through the list and not through all characters.
attribute [local instance (2000)] List.decidableBAll

/-! ## Tokens -/

/-- The lexer comes to a line in a number of steps at most. -/
def Lexer.Finishes (m : Lexer) (n : Nat) (indents : List Nat) (ts : List Token) (d : Nat)
    (tail : List Char) : Prop :=
  ∃ k, Reaches n m k ∧ k.Arrives (kept indents d) (ts ++ closing indents d) d true tail

/-- Items or entries at a column are cut into tokens. The first one opens a block node with the
given token unless one is open at the column. -/
def LexesBlock (start : Token) (c : Nat) (cs : List Char) (ts : List Token) : Prop :=
  ∀ (m : Lexer) (indents : List Nat) (before : List Token) (d : Nat) (tail : List Char),
    (∀ i ∈ indents.head?, i ≤ c) → d ≤ c → StartsToken tail →
    m.Arrives indents before c true (cs ++ '\n' :: (List.replicate d ' ' ++ tail)) →
      m.Finishes cs.length (opened indents c) (before ++ opening indents c start ++ ts) d tail

/-- What stands behind a sign of a block node at a column is cut into tokens. A block on the line
of the sign is compact. -/
def LexesNode (compact : Bool) (n : Nat) (cs : List Char) (ts : List Token) : Prop :=
  ∀ (m : Lexer) (indents : List Nat) (before : List Token) (column d : Nat) (tail : List Char),
    indents.head? = some n → n < column → (compact = true → column = n + 1) → d ≤ n →
    StartsToken tail →
    m.Behind indents before column compact (cs ++ '\n' :: (List.replicate d ' ' ++ tail)) →
      m.Finishes cs.length indents (before ++ ts) d tail

theorem Lexer.head?_opened (indents : List Nat) (c : Nat) : (opened indents c).head? = some c := by
  rw [opened]
  split
  · assumption
  · rfl

theorem Lexer.le_of_mem_head?_opened {indents : List Nat} {c i : Nat}
    (h : i ∈ (opened indents c).head?) : i ≤ c := by
  rw [head?_opened, Option.mem_some] at h
  exact Nat.le_of_eq h.symm

theorem startsToken_append {cs more : List Char} (h : StartsToken cs) (hne : cs ≠ []) :
    StartsToken (cs ++ more) := by
  obtain ⟨c, cs, rfl⟩ := List.exists_cons_of_ne_nil hne
  exact h

/-- Two blocks, one below the other. -/
theorem LexesBlock.append {start : Token} {c : Nat} {cs more : List Char} {ts mts : List Token}
    (h : LexesBlock start c cs ts) (hmore : LexesBlock start c more mts) (hstart : StartsToken more)
    (hne : more ≠ []) :
    LexesBlock start c (cs ++ '\n' :: (List.replicate c ' ' ++ more)) (ts ++ mts) := by
  intro m indents before d tail hindents hd htail hm
  simp only [List.append_assoc, List.cons_append] at hm
  obtain ⟨k, hfirst, hk⟩ := h m indents before c _ hindents (Nat.le_refl c)
    (startsToken_append hstart hne) hm
  have hle : ∀ i ∈ (opened indents c).head?, i ≤ c := fun i => Lexer.le_of_mem_head?_opened
  rw [kept_eq_self hle, closing_eq_nil hle, List.append_nil] at hk
  obtain ⟨j, hsecond, hj⟩ := hmore k _ _ d tail hle hd htail hk
  have hsame : opened (opened indents c) c = opened indents c := if_pos (Lexer.head?_opened indents c)
  have hnone : opening (opened indents c) c start = [] := if_pos (Lexer.head?_opened indents c)
  rw [hsame, hnone, List.append_nil, List.append_assoc _ ts mts] at hj
  refine ⟨j, (hfirst.trans hsecond).mono ?_, hj⟩
  simp only [List.length_append, List.length_cons, List.length_replicate]
  omega

theorem endsWord_head?_append {cs more : List Char} (h : endsWord cs.head? = true) (hne : cs ≠ []) :
    endsWord (cs ++ more).head? = true := by
  obtain ⟨c, cs, rfl⟩ := List.exists_cons_of_ne_nil hne
  exact h

/-- An item of a list. -/
theorem LexesNode.item {c : Nat} {cs : List Char} {ts : List Token} (h : LexesNode true c cs ts)
    (hword : endsWord cs.head? = true) (hne : cs ≠ []) :
    LexesBlock .blockListStart c ('-' :: cs) (.entry :: ts) := by
  intro m indents before d tail hindents hd htail hm
  obtain ⟨k, hfirst, hk⟩ := hm.exists_entry (endsWord_head?_append hword hne) hindents
  obtain ⟨j, hsecond, hj⟩ := h k _ _ _ d tail (Lexer.head?_opened indents c) (Nat.lt_succ_self c)
    (fun _ => rfl) hd htail hk
  rw [List.append_assoc _ [_] ts, List.singleton_append] at hj
  refine ⟨j, (hfirst.trans hsecond).mono ?_, hj⟩
  rw [List.length_cons]
  omega

/-- An entry whose key is on one line. -/
theorem LexesNode.entry {c : Nat} {kcs cs : List Char} {plain : Bool} {text : String}
    {ts : List Token} (h : LexesNode false c cs ts) (hkey : LexesKey kcs plain text)
    (hkne : kcs ≠ []) (hword : endsWord cs.head? = true) (hne : cs ≠ []) :
    LexesBlock .blockMapStart c (kcs ++ ':' :: cs) (.key :: .scalar plain text :: .value :: ts) := by
  intro m indents before d tail hindents hd htail hm
  rw [List.append_assoc, List.cons_append] at hm
  obtain ⟨k, hfirst, hk⟩ := hm.exists_key hkey (endsWord_head?_append hword hne) hindents
  obtain ⟨j, hsecond, hj⟩ := h k _ _ _ d tail (Lexer.head?_opened indents c) (by omega) nofun hd
    htail hk
  rw [List.append_assoc _ [_, _, _] ts] at hj
  refine ⟨j, (hfirst.trans hsecond).mono ?_, hj⟩
  have hpos := List.length_pos_of_ne_nil hkne
  rw [List.length_append, List.length_cons]
  omega

/-- An entry whose key has a question mark. -/
theorem LexesNode.explicitEntry {c : Nat} {kcs cs : List Char} {kts ts : List Token}
    (h : LexesNode true c cs ts) (hkey : LexesNode true c kcs kts)
    (hkword : endsWord kcs.head? = true) (hkne : kcs ≠ []) (hword : endsWord cs.head? = true)
    (hne : cs ≠ []) :
    LexesBlock .blockMapStart c ('?' :: (kcs ++ '\n' :: (List.replicate c ' ' ++ ':' :: cs)))
      (.key :: (kts ++ .value :: ts)) := by
  intro m indents before d tail hindents hd htail hm
  simp only [List.append_assoc, List.cons_append] at hm
  have hcolon : StartsToken (':' :: (cs ++ '\n' :: (List.replicate d ' ' ++ tail))) := by
    rintro ch ⟨⟩
    decide
  obtain ⟨k, hfirst, hk⟩ := hm.exists_explicitKey (endsWord_head?_append hkword hkne) hindents
  obtain ⟨j, hsecond, hj⟩ := hkey k _ _ _ c _ (Lexer.head?_opened indents c) (Nat.lt_succ_self c)
    (fun _ => rfl) (Nat.le_refl c) hcolon hk
  have hle : ∀ i ∈ (opened indents c).head?, i ≤ c := fun i => Lexer.le_of_mem_head?_opened
  rw [kept_eq_self hle, closing_eq_nil hle, List.append_nil] at hj
  obtain ⟨s, hthird, hs⟩ := hj.exists_explicitValue (endsWord_head?_append hword hne)
    (Lexer.head?_opened indents c)
  obtain ⟨r, hfourth, hr⟩ := h s _ _ _ d tail (Lexer.head?_opened indents c) (Nat.lt_succ_self c)
    (fun _ => rfl) hd htail hs
  simp only [List.append_assoc, List.singleton_append] at hr ⊢
  refine ⟨r, (hfirst.trans (hsecond.trans (hthird.trans hfourth))).mono ?_, ?_⟩
  · simp only [List.length_append, List.length_cons, List.length_replicate]
    omega
  · simpa only [List.append_assoc, List.cons_append] using hr

/-! ## Nodes -/

/-- A scalar behind a space. -/
theorem Lexer.LexesScalar.node {n : Nat} {cs : List Char} {plain : Bool} {text : String}
    (h : LexesScalar n cs plain text) (hstart : StartsToken cs) (hne : cs ≠ []) (compact : Bool) :
    LexesNode compact n (' ' :: cs) [.scalar plain text] := by
  intro m indents before column d tail hindents hcolumn hcompact hd htail hm
  have hle : ∀ i ∈ indents.head?, i ≤ m.cursor.column + 1 := by
    rw [hindents, hm.column]
    rintro i ⟨⟩
    omega
  have harrives := hm.toOutside.arrives_spaces (n := 1) (fun _ => hm.pending) hm.rest
    (startsToken_append hstart hne) hle
  rw [hm.column, hm.keyAllowed] at harrives
  obtain ⟨k, hreach, hk⟩ := harrives.exists_scalar h hindents (by omega) hd htail
  exact ⟨k, hreach.mono (Nat.succ_le_succ (Nat.zero_le _)), hk⟩

/-- Empty brackets behind a space. -/
theorem lexesNode_brackets {left right : Char} {first last : Token}
    (hopen : ∀ m : Lexer, m.tokenAt left = m.openFlow first)
    (hclose : ∀ m : Lexer, m.tokenAt right = m.closeFlow last)
    (hleft : ∀ cs, StartsToken (left :: cs)) (hright : ∀ cs, StartsToken (right :: cs)) (n : Nat)
    (compact : Bool) : LexesNode compact n [' ', left, right] [first, last] := by
  intro m indents before column d tail hindents hcolumn hcompact hd htail hm
  have hle : ∀ i ∈ indents.head?, i ≤ m.cursor.column + 1 := by
    rw [hindents, hm.column]
    rintro i ⟨⟩
    omega
  have harrives := hm.toOutside.arrives_spaces (n := 1) (fun _ => hm.pending) hm.rest (hleft _) hle
  rw [hm.column, hm.keyAllowed] at harrives
  obtain ⟨k, hreach, hk⟩ := harrives.exists_brackets hopen hclose (hright _) hindents
    (by omega) htail
  exact ⟨k, hreach.mono (Nat.le_succ 2), hk⟩

/-- A block that is further to the right than its surroundings ends with them. -/
theorem Lexer.Finishes.inner {m : Lexer} {k n c d : Nat} {indents : List Nat} {before ts : List Token}
    {start : Token} {tail : List Char}
    (h : m.Finishes k (opened indents c) (before ++ opening indents c start ++ ts) d tail)
    (hindents : indents.head? = some n) (hc : n < c) (hd : d ≤ n) :
    m.Finishes k indents (before ++ start :: (ts ++ [.blockEnd])) d tail := by
  have hnew : indents.head? ≠ some c := by
    rw [hindents, ne_eq, Option.some.injEq]
    omega
  have hlt : d < c := by omega
  obtain ⟨j, hreach, hj⟩ := h
  rw [opened, if_neg hnew, opening, if_neg hnew, kept_cons hlt, closing_cons hlt] at hj
  refine ⟨j, hreach, ?_⟩
  simpa only [List.append_assoc, List.cons_append, List.nil_append] using hj

/-- A block on the line of its sign. -/
theorem LexesBlock.compact {start : Token} {n : Nat} {cs : List Char} {ts : List Token}
    (h : LexesBlock start (n + 2) cs ts) (hstart : StartsToken cs) (hne : cs ≠ []) :
    LexesNode true n (' ' :: cs) (start :: (ts ++ [.blockEnd])) := by
  intro m indents before column d tail hindents hcolumn hcompact hd htail hm
  obtain rfl := hcompact rfl
  have hle : ∀ i ∈ indents.head?, i ≤ n + 2 := by
    rw [hindents]
    rintro i ⟨⟩
    omega
  have harrives := hm.toOutside.arrives_spaces (n := 1) (fun _ => hm.pending) hm.rest
    (startsToken_append hstart hne) (by rw [hm.column]; exact hle)
  rw [hm.column, hm.keyAllowed] at harrives
  obtain ⟨k, hreach, hk⟩ := (h m indents before d tail hle (by omega) htail harrives).inner hindents
    (by omega) hd
  exact ⟨k, hreach.mono (Nat.le_succ _), hk⟩

/-- A block on lines of its own, further to the right. -/
theorem LexesBlock.indented {start : Token} {n c : Nat} {cs : List Char} {ts : List Token}
    (h : LexesBlock start c cs ts) (hc : n < c) (hstart : StartsToken cs) (hne : cs ≠ []) :
    LexesNode false n ('\n' :: (List.replicate c ' ' ++ cs)) (start :: (ts ++ [.blockEnd])) := by
  intro m indents before column d tail hindents hcolumn hcompact hd htail hm
  have hle : ∀ i ∈ indents.head?, i ≤ c := by
    rw [hindents]
    rintro i ⟨⟩
    omega
  have hrest := hm.rest
  rw [List.cons_append, List.append_assoc] at hrest
  have harrives := hm.toOutside.arrives_line hrest (startsToken_append hstart hne)
  rw [kept_eq_self hle, closing_eq_nil hle, List.append_nil] at harrives
  obtain ⟨k, hreach, hk⟩ := (h m indents before d tail hle (by omega) htail harrives).inner hindents
    hc hd
  refine ⟨k, hreach.mono ?_, hk⟩
  rw [List.length_cons, List.length_append]
  omega

/-- A block on lines of its own that is not indented. -/
theorem LexesBlock.flat {start : Token} {n : Nat} {cs : List Char} {ts : List Token}
    (h : LexesBlock start n cs ts) (hstart : StartsToken cs) (hne : cs ≠ []) :
    LexesNode false n ('\n' :: (List.replicate n ' ' ++ cs)) ts := by
  intro m indents before column d tail hindents hcolumn hcompact hd htail hm
  have hle : ∀ i ∈ indents.head?, i ≤ n := by
    rw [hindents]
    rintro i ⟨⟩
    exact Nat.le_refl n
  have hrest := hm.rest
  rw [List.cons_append, List.append_assoc] at hrest
  have harrives := hm.toOutside.arrives_line hrest (startsToken_append hstart hne)
  rw [kept_eq_self hle, closing_eq_nil hle, List.append_nil] at harrives
  obtain ⟨k, hreach, hk⟩ := h m indents before d tail hle hd htail harrives
  rw [opened, if_pos hindents, opening, if_pos hindents, List.append_nil] at hk
  refine ⟨k, hreach.mono ?_, hk⟩
  rw [List.length_cons, List.length_append]
  omega

/-! ## Values -/

/-- Characters that are read to the items of a list at a column. -/
structure ReadsBlockItems (c : Nat) (cs : List Char) (vs : List Value) : Prop where
  starts : cs.head? = some '-'
  permitted : ∀ ch ∈ cs, isPermitted ch = true
  reads : ∃ ts, LexesBlock .blockListStart c cs ts ∧ YieldsBlockItems ts vs

/-- Characters that are read to the entries of a mapping at a column. -/
structure ReadsBlockEntries (c : Nat) (cs : List Char) (entries : List (Value × Value)) : Prop where
  nonempty : cs ≠ []
  starts : StartsToken cs
  unmarked : ∀ ch ∈ cs.head?, ch.toNat ≠ 0xFEFF
  permitted : ∀ ch ∈ cs, isPermitted ch = true
  reads : ∃ ts, LexesBlock .blockMapStart c cs (.key :: ts) ∧ YieldsBlockEntries (.key :: ts) entries

/-- Characters that are read to a value behind a sign at a column. Only behind the colon of a key a
list need not be indented. -/
structure ReadsNode (compact : Bool) (n : Nat) (cs : List Char) (v : Value) : Prop where
  nonempty : cs ≠ []
  starts : endsWord cs.head? = true
  permitted : ∀ ch ∈ cs, isPermitted ch = true
  reads : ∃ ts, LexesNode compact n cs ts ∧
    ∀ flat, (compact = false → flat = true) → YieldsNode flat ts v

/-- Characters that are read to a scalar behind a sign at a column. -/
structure ReadsScalar (n : Nat) (cs : List Char) (v : Value) : Prop where
  starts : cs.head? = some ' '
  permitted : ∀ ch ∈ cs, isPermitted ch = true
  reads : ∃ ts, (∀ compact, LexesNode compact n cs ts) ∧ YieldsKey ts v

/-- Characters that are read to a scalar in front of a colon. -/
structure ReadsKey (cs : List Char) (v : Value) : Prop where
  nonempty : cs ≠ []
  starts : StartsToken cs
  permitted : ∀ ch ∈ cs, isPermitted ch = true
  reads : ∃ plain text, LexesKey cs plain text ∧ YieldsKey [.scalar plain text] v

theorem nonempty_of_head? {cs : List Char} {c : Char} (h : cs.head? = some c) : cs ≠ [] := by
  rintro rfl
  cases h

theorem isPermitted_replicate {n : Nat} : ∀ ch ∈ List.replicate n ' ', isPermitted ch = true := by
  intro ch hch
  rw [List.eq_of_mem_replicate hch]
  rfl

theorem isPermitted_line {n : Nat} {cs : List Char} (h : ∀ ch ∈ cs, isPermitted ch = true) :
    ∀ ch ∈ '\n' :: (List.replicate n ' ' ++ cs), isPermitted ch = true :=
  List.forall_mem_cons.mpr ⟨rfl, List.forall_mem_append.mpr ⟨isPermitted_replicate, h⟩⟩

theorem startsToken_hyphen {cs : List Char} (h : cs.head? = some '-') : StartsToken cs := by
  intro ch hch
  rw [h] at hch
  obtain rfl := Option.some.inj hch
  decide

theorem ReadsScalar.node {n : Nat} {cs : List Char} {v : Value} (h : ReadsScalar n cs v)
    (compact : Bool) : ReadsNode compact n cs v where
  nonempty := nonempty_of_head? h.starts
  starts := by
    rw [h.starts]
    rfl
  permitted := h.permitted
  reads := by
    obtain ⟨ts, hlexes, hyields⟩ := h.reads
    exact ⟨ts, hlexes compact, fun flat _ => hyields.node flat⟩

/-! ### Items -/

theorem ReadsNode.item {c : Nat} {cs : List Char} {v : Value} (h : ReadsNode true c cs v) :
    ReadsBlockItems c ('-' :: cs) [v] where
  starts := rfl
  permitted := List.forall_mem_cons.mpr ⟨rfl, h.permitted⟩
  reads := by
    obtain ⟨ts, hlexes, hyields⟩ := h.reads
    exact ⟨_, hlexes.item h.starts h.nonempty, (hyields false nofun).lastItem⟩

theorem ReadsNode.moreItems {c : Nat} {cs more : List Char} {v : Value} {vs : List Value}
    (h : ReadsNode true c cs v) (hmore : ReadsBlockItems c more vs) :
    ReadsBlockItems c ('-' :: cs ++ '\n' :: (List.replicate c ' ' ++ more)) (v :: vs) where
  starts := rfl
  permitted := List.forall_mem_append.mpr
    ⟨List.forall_mem_cons.mpr ⟨rfl, h.permitted⟩, isPermitted_line hmore.permitted⟩
  reads := by
    obtain ⟨ts, hlexes, hyields⟩ := h.reads
    obtain ⟨mts, hmoreLexes, hmoreYields⟩ := hmore.reads
    exact ⟨_, (hlexes.item h.starts h.nonempty).append hmoreLexes (startsToken_hyphen hmore.starts)
      (nonempty_of_head? hmore.starts), (hyields false nofun).moreItems hmoreYields⟩

theorem ReadsBlockItems.compact {n : Nat} {cs : List Char} {vs : List Value} (h : ReadsBlockItems (n + 2) cs vs) :
    ReadsNode true n (' ' :: cs) (.list vs) where
  nonempty := List.cons_ne_nil _ _
  starts := rfl
  permitted := List.forall_mem_cons.mpr ⟨rfl, h.permitted⟩
  reads := by
    obtain ⟨ts, hlexes, hyields⟩ := h.reads
    exact ⟨_, hlexes.compact (startsToken_hyphen h.starts) (nonempty_of_head? h.starts),
      fun flat _ => hyields.list flat⟩

theorem ReadsBlockItems.flat {n : Nat} {cs : List Char} {vs : List Value} (h : ReadsBlockItems n cs vs) :
    ReadsNode false n ('\n' :: (List.replicate n ' ' ++ cs)) (.list vs) where
  nonempty := List.cons_ne_nil _ _
  starts := rfl
  permitted := isPermitted_line h.permitted
  reads := by
    obtain ⟨ts, hlexes, hyields⟩ := h.reads
    refine ⟨ts, hlexes.flat (startsToken_hyphen h.starts) (nonempty_of_head? h.starts),
      fun flat hflat => ?_⟩
    obtain rfl := hflat rfl
    exact hyields.flatList

/-! ### Entries -/

/-- An entry with a key, as it stands in a mapping at a column. -/
def EntryAt (c : Nat) (cs : List Char) (k v : Value) : Prop :=
  (∃ kcs vcs, cs = kcs ++ ':' :: vcs ∧ ReadsKey kcs k ∧ ReadsNode false c vcs v) ∨
    ∃ kcs vcs, cs = '?' :: (kcs ++ '\n' :: (List.replicate c ' ' ++ ':' :: vcs)) ∧
      ReadsScalar c kcs k ∧ ReadsNode true c vcs v

theorem EntryAt.exists_tokens {c : Nat} {cs : List Char} {k v : Value} (h : EntryAt c cs k v) :
    ∃ kts vts, LexesBlock .blockMapStart c cs (.key :: (kts ++ .value :: vts)) ∧ YieldsKey kts k ∧
      YieldsNode true vts v := by
  obtain ⟨kcs, vcs, rfl, hk, hv⟩ | ⟨kcs, vcs, rfl, hk, hv⟩ := h
  · obtain ⟨plain, text, hklexes, hkyields⟩ := hk.reads
    obtain ⟨vts, hvlexes, hvyields⟩ := hv.reads
    exact ⟨_, vts, hvlexes.entry hklexes hk.nonempty hv.starts hv.nonempty, hkyields,
      hvyields true fun _ => rfl⟩
  · obtain ⟨kts, hklexes, hkyields⟩ := hk.reads
    obtain ⟨vts, hvlexes, hvyields⟩ := hv.reads
    have hword : endsWord kcs.head? = true := by
      rw [hk.starts]
      rfl
    exact ⟨kts, vts, hvlexes.explicitEntry (hklexes true) hword (nonempty_of_head? hk.starts) hv.starts
      hv.nonempty, hkyields, hvyields true fun _ => rfl⟩

theorem EntryAt.nonempty {c : Nat} {cs : List Char} {k v : Value} (h : EntryAt c cs k v) : cs ≠ [] := by
  obtain ⟨kcs, vcs, rfl, -, -⟩ | ⟨kcs, vcs, rfl, -, -⟩ := h
  · exact List.append_ne_nil_of_right_ne_nil _ (List.cons_ne_nil _ _)
  · exact List.cons_ne_nil _ _

theorem EntryAt.starts {c : Nat} {cs : List Char} {k v : Value} (h : EntryAt c cs k v) :
    StartsToken cs := by
  obtain ⟨kcs, vcs, rfl, hk, -⟩ | ⟨kcs, vcs, rfl, -, -⟩ := h
  · exact startsToken_append hk.starts hk.nonempty
  · rintro ch ⟨⟩
    decide

theorem EntryAt.unmarked {c : Nat} {cs : List Char} {k v : Value} (h : EntryAt c cs k v) :
    ∀ ch ∈ cs.head?, ch.toNat ≠ 0xFEFF := by
  obtain ⟨kcs, vcs, rfl, hk, -⟩ | ⟨kcs, vcs, rfl, -, -⟩ := h
  · obtain ⟨plain, text, hlexes, -⟩ := hk.reads
    rw [List.head?_append_of_ne_nil _ hk.nonempty]
    exact fun ch hch => hlexes.unmarked ch (List.mem_of_mem_head? hch)
  · rintro ch ⟨⟩
    decide

theorem EntryAt.permitted {c : Nat} {cs : List Char} {k v : Value} (h : EntryAt c cs k v) :
    ∀ ch ∈ cs, isPermitted ch = true := by
  obtain ⟨kcs, vcs, rfl, hk, hv⟩ | ⟨kcs, vcs, rfl, hk, hv⟩ := h
  · exact List.forall_mem_append.mpr ⟨hk.permitted, List.forall_mem_cons.mpr ⟨rfl, hv.permitted⟩⟩
  · exact List.forall_mem_cons.mpr ⟨rfl, List.forall_mem_append.mpr ⟨hk.permitted,
      isPermitted_line (List.forall_mem_cons.mpr ⟨rfl, hv.permitted⟩)⟩⟩

theorem EntryAt.last {c : Nat} {cs : List Char} {k v : Value} (h : EntryAt c cs k v) :
    ReadsBlockEntries c cs [(k, v)] where
  nonempty := h.nonempty
  starts := h.starts
  unmarked := h.unmarked
  permitted := h.permitted
  reads := by
    obtain ⟨kts, vts, hlexes, hk, hv⟩ := h.exists_tokens
    exact ⟨_, hlexes, hk.lastEntry hv⟩

theorem EntryAt.more {c : Nat} {cs more : List Char} {k v : Value} {entries : List (Value × Value)}
    (h : EntryAt c cs k v) (hmore : ReadsBlockEntries c more entries) :
    ReadsBlockEntries c (cs ++ '\n' :: (List.replicate c ' ' ++ more)) ((k, v) :: entries) where
  nonempty := List.append_ne_nil_of_left_ne_nil h.nonempty _
  starts := startsToken_append h.starts h.nonempty
  unmarked := by
    rw [List.head?_append_of_ne_nil _ h.nonempty]
    exact h.unmarked
  permitted := List.forall_mem_append.mpr ⟨h.permitted, isPermitted_line hmore.permitted⟩
  reads := by
    obtain ⟨kts, vts, hlexes, hk, hv⟩ := h.exists_tokens
    obtain ⟨mts, hmoreLexes, hmoreYields⟩ := hmore.reads
    have hboth := hlexes.append hmoreLexes hmore.starts hmore.nonempty
    simp only [List.cons_append, List.append_assoc] at hboth
    exact ⟨_, hboth, hk.moreEntries hv hmoreYields rfl⟩

theorem ReadsBlockEntries.compact {n : Nat} {cs : List Char} {entries : List (Value × Value)}
    (h : ReadsBlockEntries (n + 2) cs entries) (hdistinct : Value.mapping entries = .map entries) :
    ReadsNode true n (' ' :: cs) (.map entries) where
  nonempty := List.cons_ne_nil _ _
  starts := rfl
  permitted := List.forall_mem_cons.mpr ⟨rfl, h.permitted⟩
  reads := by
    obtain ⟨ts, hlexes, hyields⟩ := h.reads
    exact ⟨_, hlexes.compact h.starts h.nonempty, fun flat _ => hyields.map hdistinct flat⟩

theorem ReadsBlockEntries.indented {n c : Nat} {cs : List Char} {entries : List (Value × Value)}
    (h : ReadsBlockEntries c cs entries) (hc : n < c)
    (hdistinct : Value.mapping entries = .map entries) :
    ReadsNode false n ('\n' :: (List.replicate c ' ' ++ cs)) (.map entries) where
  nonempty := List.cons_ne_nil _ _
  starts := rfl
  permitted := isPermitted_line h.permitted
  reads := by
    obtain ⟨ts, hlexes, hyields⟩ := h.reads
    exact ⟨_, hlexes.indented hc h.starts h.nonempty, fun flat _ => hyields.map hdistinct flat⟩

/-! ### Empty brackets -/

theorem readsNode_emptyList (compact : Bool) (n : Nat) :
    ReadsNode compact n [' ', '[', ']'] (.list []) where
  nonempty := List.cons_ne_nil _ _
  starts := rfl
  permitted := by decide
  reads := ⟨_, lexesNode_brackets (fun _ => rfl) (fun _ => rfl)
    (fun _ => by rintro ch ⟨⟩; decide) (fun _ => by rintro ch ⟨⟩; decide) n compact,
    fun flat _ => Parser.yieldsNode_emptyList flat⟩

theorem readsNode_emptyMap (compact : Bool) (n : Nat) :
    ReadsNode compact n [' ', '\x7b', '\x7d'] (.map []) where
  nonempty := List.cons_ne_nil _ _
  starts := rfl
  permitted := by decide
  reads := ⟨_, lexesNode_brackets (fun _ => rfl) (fun _ => rfl)
    (fun _ => by rintro ch ⟨⟩; decide) (fun _ => by rintro ch ⟨⟩; decide) n compact,
    fun flat _ => Parser.yieldsNode_emptyMap flat⟩

end DocSchema.Yaml
