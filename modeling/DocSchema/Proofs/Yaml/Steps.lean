import DocSchema.Proofs.Assoc
import DocSchema.Proofs.Yaml.Spacing

/-!
# Steps of the lexer

The lexer reads a token a step. What it has emitted so far are its tokens with the keys that it has
seen in their slots; a slot that is left adds nothing to this until its key is confirmed. Slots are
numbered, so that a later key does not change what stands in front of its slot.

## Main definitions

* `Lexer.Reaches`: several steps, with a bound on their number
* `Lexer.emitted`: the tokens so far
* `Lexer.Numbered`: all slots have been counted
* `Lexer.withSlot`: a slot has been left for a key
* `Lexer.BehindSlot`: a token has been read behind a slot

## Main results

* `Lexer.run_of_reaches`: the steps are part of a run
* `Lexer.emitted_push`, `Lexer.Numbered.emitted_withSlot`, `Lexer.resolveSlots_confirm`: what a token,
  a slot and a key add
-/

namespace DocSchema.Yaml

/-! ## Slots -/

theorem resolveSlots_append (keys : List (Nat × Bool)) (first second : List Slotted) :
    resolveSlots keys (first ++ second) = resolveSlots keys first ++ resolveSlots keys second := by
  induction first with
  | nil => rfl
  | cons s first ih =>
    cases s with
    | token t => rw [List.cons_append, resolveSlots, resolveSlots, ih, List.cons_append]
    | slot id =>
      rw [List.cons_append, resolveSlots, resolveSlots]
      match Assoc.find? id keys with
      | some true => exact congrArg (fun ts => Token.blockMapStart :: .key :: ts) ih
      | some false => exact congrArg (fun ts => Token.key :: ts) ih
      | none => exact ih

theorem resolveSlots_tokens (keys : List (Nat × Bool)) (ts : List Token) :
    resolveSlots keys (ts.map .token) = ts := by
  induction ts with
  | nil => rfl
  | cons t ts ih => rw [List.map_cons, resolveSlots, ih]

/-- A key changes nothing where its slot is not. -/
theorem resolveSlots_of_notMem {keys : List (Nat × Bool)} {id : Nat} {opens : Bool}
    {read : List Slotted} (h : .slot id ∉ read) :
    resolveSlots ((id, opens) :: keys) read = resolveSlots keys read := by
  induction read with
  | nil => rfl
  | cons s read ih =>
    rw [List.mem_cons, not_or] at h
    cases s with
    | token t => rw [resolveSlots, resolveSlots, ih h.2]
    | slot other =>
      have hne : (id == other) = false := by
        rw [beq_eq_false_iff_ne]
        rintro rfl
        exact h.1 rfl
      have hfind : Assoc.find? other ((id, opens) :: keys) = Assoc.find? other keys := by
        rw [Assoc.find?, hne, if_neg Bool.false_ne_true]
      rw [resolveSlots, resolveSlots, hfind, ih h.2]

namespace Lexer

variable {l m r : Lexer}

/-! ## Several steps -/

/-- One lexer becomes another in a number of steps at most, none of which is the last one. -/
inductive Reaches : Nat → Lexer → Lexer → Prop
  | refl (n : Nat) (l : Lexer) : Reaches n l l
  | step {n : Nat} {l m r : Lexer} (hstep : l.step = .ok m) (hopen : m.done = false)
    (hrest : Reaches n m r) : Reaches (n + 1) l r

theorem Reaches.mono {n k : Nat} (h : Reaches n l r) (hle : n ≤ k) : Reaches k l r := by
  induction h generalizing k with
  | refl n l => exact .refl _ _
  | step hstep hopen _ ih =>
    obtain ⟨k, rfl⟩ := Nat.exists_eq_add_of_le' (Nat.lt_of_lt_of_le (Nat.succ_pos _) hle)
    exact .step hstep hopen (ih (Nat.le_of_succ_le_succ hle))

theorem Reaches.trans {n k : Nat} (hlm : Reaches n l m) (hmr : Reaches k m r) :
    Reaches (n + k) l r := by
  induction hlm with
  | refl n l => exact hmr.mono (Nat.le_add_left _ _)
  | @step n _ _ _ hstep hopen _ ih =>
    rw [Nat.add_right_comm]
    exact .step hstep hopen (ih hmr)

theorem Reaches.single (hstep : l.step = .ok m) (hopen : m.done = false) : Reaches 1 l m :=
  .step hstep hopen (.refl 0 m)

/-- A run goes on where the steps end, with some fuel left. -/
theorem run_of_reaches {n : Nat} (h : Reaches n l r) (k : Nat) :
    ∃ more, run (n + k) l = run (more + k) r := by
  induction h with
  | refl n l => exact ⟨n, rfl⟩
  | @step n l m r hstep hopen _ ih =>
    obtain ⟨more, hmore⟩ := ih
    refine ⟨more, ?_⟩
    rw [Nat.add_right_comm, run, hstep]
    show (if m.done = true then _ else run (n + k) m) = _
    rw [hopen, if_neg Bool.false_ne_true, hmore]

/-! ## What has been emitted -/

/-- The tokens so far, with the keys in their slots. -/
def emitted (l : Lexer) : List Token := resolveSlots l.keys l.read.reverse

/-- All slots have been counted. -/
structure Numbered (l : Lexer) : Prop where
  slot_lt : ∀ id, .slot id ∈ l.read → id < l.slots
  key_lt : ∀ key ∈ l.keys, key.1 < l.slots

theorem Numbered.push (h : l.Numbered) (t : Token) : (l.push t).Numbered where
  slot_lt id hid := by
    obtain hid | hid := List.mem_cons.mp hid
    · cases hid
    · exact h.slot_lt id hid
  key_lt := h.key_lt

theorem emitted_push (l : Lexer) (t : Token) : (l.push t).emitted = l.emitted ++ [t] := by
  rw [emitted, push]
  dsimp only
  rw [List.reverse_cons, resolveSlots_append]
  rfl

/-- A slot that has not been counted yet is no key. -/
theorem Numbered.find?_slots (h : l.Numbered) : Assoc.find? l.slots l.keys = none := by
  refine Assoc.find?_eq_none_iff.mpr fun hmem => ?_
  obtain ⟨key, hkey, hid⟩ := List.mem_map.mp hmem
  exact absurd (h.key_lt key hkey) (by rw [hid]; exact Nat.lt_irrefl _)

/-- A confirmed key puts its tokens into its slot. -/
theorem resolveSlots_confirm {keys : List (Nat × Bool)} {id : Nat} {read : List Slotted}
    (h : .slot id ∉ read) (opens : Bool) (ts : List Token) :
    resolveSlots ((id, opens) :: keys) ((ts.map Slotted.token).reverse ++ .slot id :: read).reverse =
      resolveSlots keys read.reverse ++
        ((if opens then [.blockMapStart, .key] else [.key]) ++ ts) := by
  have hread : .slot id ∉ read.reverse := by rwa [List.mem_reverse]
  have hfind : Assoc.find? id ((id, opens) :: keys) = some opens := if_pos (beq_self_eq_true id)
  rw [List.reverse_append, List.reverse_cons, List.reverse_reverse, List.append_assoc,
    resolveSlots_append, resolveSlots_of_notMem hread, List.singleton_append, resolveSlots, hfind,
    resolveSlots_tokens]
  cases opens <;> rfl

/-! ## Pending keys -/

/-- Optional keys are given up without complaint. -/
theorem dropPending_eq (h : ∀ key ∈ l.pending, key.2.required = false) :
    l.dropPending =
      .ok { l with pending := l.pending.filter fun (depth, _) => depth != l.depth } := by
  have hoptional : (Assoc.find? l.depth l.pending).any PendingKey.required = false := by
    cases hfind : Assoc.find? l.depth l.pending with
    | none => rfl
    | some key => exact h _ (Assoc.mem_of_find?_eq_some hfind)
  rw [dropPending, hoptional, if_neg Bool.false_ne_true]

theorem dropStale_eq (h : ∀ key ∈ l.pending, key.2.required = false) :
    l.dropStale =
      .ok { l with pending := l.pending.filter fun (_, key) => !isStale l.cursor key } := by
  have hoptional : (l.pending.any fun (_, key) => isStale l.cursor key && key.required) = false := by
    rw [List.any_eq_false]
    intro key hkey
    show ¬ (isStale l.cursor key.2 && key.2.required) = true
    rw [h key hkey, Bool.and_false]
    exact Bool.false_ne_true
  rw [dropStale, hoptional, if_neg Bool.false_ne_true]

/-- The key that may turn out to start at the place of a lexer. -/
def newKey (l : Lexer) : PendingKey where
  id := l.slots
  required := !l.inFlow && l.indents.head? == some l.cursor.column
  index := l.cursor.index
  line := l.cursor.line
  column := l.cursor.column

/-- A lexer that has left a slot in front of its place. -/
def withSlot (l : Lexer) : Lexer :=
  { l with
    read := .slot l.slots :: l.read
    slots := l.slots + 1
    pending := (l.depth, l.newKey) :: l.pending.filter fun (depth, _) => depth != l.depth }

theorem leaveSlot_eq (h : ∀ key ∈ l.pending, key.2.required = false)
    (hallowed : l.keyAllowed = true) : l.leaveSlot = .ok l.withSlot := by
  rw [leaveSlot, if_pos hallowed, dropPending_eq h]
  rfl

/-- A key that starts at a place is out of reach behind characters on its line if they are too many. -/
theorem isStale_newKey {cs tail : List Char} (hrest : l.cursor.rest = cs ++ tail) (hline : IsLine cs) :
    isStale (l.cursor.skip cs.length) l.newKey = decide (1024 < cs.length) := by
  rw [isStale, Cursor.line_skip hrest hline, Cursor.index_skip hrest, newKey, bne_self_eq_false,
    Bool.false_or, Nat.add_sub_cancel_left]

theorem leaveSlot_of_not_allowed (h : l.keyAllowed = false) : l.leaveSlot = .ok l := by
  rw [leaveSlot, h, if_neg Bool.false_ne_true]

theorem Numbered.withSlot (h : l.Numbered) : l.withSlot.Numbered where
  slot_lt id hid := by
    obtain hid | hid := List.mem_cons.mp hid
    · cases hid
      exact Nat.lt_succ_self _
    · exact Nat.lt_succ_of_lt (h.slot_lt id hid)
  key_lt key hkey := Nat.lt_succ_of_lt (h.key_lt key hkey)

/-- A new slot adds nothing by itself. -/
theorem Numbered.emitted_withSlot (h : l.Numbered) : l.withSlot.emitted = l.emitted := by
  show resolveSlots l.keys (.slot l.slots :: l.read).reverse = _
  rw [List.reverse_cons, resolveSlots_append, resolveSlots, h.find?_slots]
  exact List.append_nil _

/-! ## A token behind a slot -/

/-- The last token has been read behind a slot that is still empty. -/
structure BehindSlot (l : Lexer) (id : Nat) (ts : List Token) (t : Token) : Prop extends
    Numbered l where
  id_lt : id < l.slots
  /-- Nothing but the slot stands between the earlier tokens and the last one. -/
  read : ∃ read, l.read = .token t :: .slot id :: read ∧ .slot id ∉ read ∧
    resolveSlots l.keys read.reverse = ts

theorem Numbered.behindSlot (h : l.Numbered) (allowed : Bool) (c : Cursor) (t : Token) :
    ({ l.withSlot with keyAllowed := allowed, cursor := c }.push t).BehindSlot l.slots l.emitted t where
  slot_lt := (h.withSlot.push t).slot_lt
  key_lt := (h.withSlot.push t).key_lt
  id_lt := Nat.lt_succ_self l.slots
  read := ⟨l.read, rfl, fun hmem => Nat.lt_irrefl _ (h.slot_lt _ hmem), rfl⟩

variable {key : PendingKey} {ts : List Token} {t : Token}

theorem BehindSlot.confirm (h : l.BehindSlot key.id ts t) : (l.confirm key).Numbered :=
  ⟨h.slot_lt, List.forall_mem_cons.mpr ⟨h.id_lt, h.key_lt⟩⟩

/-- A colon fills the slot. -/
theorem BehindSlot.emitted_confirm (h : l.BehindSlot key.id ts t) :
    ((l.confirm key).sign .value).emitted =
      ts ++ ((if !l.inFlow && l.opensAt key.column then [.blockMapStart, .key] else [.key]) ++
        [t, .value]) := by
  obtain ⟨read, hread, hnew, hbefore⟩ := h.read
  show resolveSlots ((key.id, !l.inFlow && l.opensAt key.column) :: l.keys)
    (.token .value :: l.read).reverse = _
  rw [hread, ← hbefore]
  exact resolveSlots_confirm hnew _ [t, .value]

end Lexer

end DocSchema.Yaml
