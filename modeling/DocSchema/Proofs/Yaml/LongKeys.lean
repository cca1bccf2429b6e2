import DocSchema.Proofs.Yaml.Documents
import DocSchema.Proofs.Yaml.QuotedScalars

/-!
# Keys that are too long

A key is forgotten once its text is more than 1024 characters behind. The colon is then misplaced,
and the document is refused.

## Main results

* `read_longKey`
-/

namespace DocSchema.Yaml

namespace Lexer

variable {l : Lexer} {ts : List Token} {tail : List Char}

/-- Where all that is pending is out of reach a colon is misplaced. -/
theorem Outside.step_misplaced (h : l.Outside [] ts) (hallowed : l.keyAllowed = false)
    (hstale : ∀ key ∈ l.pending, isStale l.cursor key.2 = true) (hrest : l.cursor.rest = ':' :: tail)
    (hword : endsWord tail.head? = true) : l.step = .error (.problem .misplacedValue) := by
  have hskip : l.skipToToken (l.cursor.rest.length + 1) = l :=
    skipToToken_spaces (n := 0) hrest (by rintro ch ⟨⟩; decide) (Nat.succ_pos _)
  have hdrop : l.dropStale = .ok { l with pending := [] } := by
    rw [dropStale_eq h.optional, List.filter_eq_nil_iff.mpr]
    intro key hkey
    show ¬ (!isStale l.cursor key.2) = true
    rw [hstale key hkey]
    exact Bool.false_ne_true
  generalize hk : ({ l with pending := [] } : Lexer) = k at hdrop
  have hflow : k.inFlow = false := by
    rw [← hk]
    exact h.inFlow
  have hclose : k.closeBlocks (fun i => k.cursor.column < i) = k :=
    closeBlocks_eq_self (by rw [← hk, h.indents]; rintro _ ⟨⟩)
  have hplace : k.cursor.rest = ':' :: tail := by rw [← hk, hrest]
  rw [step_of_dropStale hskip hdrop hclose hplace, tokenAt_colon hplace hword, valueSign,
    hflow]
  have hpending : k.pending = [] := hk ▸ rfl
  have hnotAllowed : k.keyAllowed = false := by
    rw [← hk]
    exact hallowed
  rw [hpending, hnotAllowed]
  rfl

end Lexer

/-- A document that opens with a quoted text too far in front of its colon is refused. -/
theorem read_longKey {double : Bool} {cs tail : List Char} {text : String}
    (h : ReadsQuoted double cs text) (hline : ∀ c ∈ cs, 32 ≤ c.toNat ∧ c.toNat ≤ 126)
    (hlong : 1024 < cs.length) (hword : endsWord tail.head? = true)
    (hpermitted : ∀ c ∈ tail, isPermitted c = true) :
    read (String.ofList (cs ++ ':' :: tail)) = .error (.problem .misplacedValue) := by
  obtain ⟨r, hr, hstep⟩ := Lexer.arrives_start (@startsToken_append cs (':' :: tail)
    h.startsToken h.nonempty)
  obtain ⟨l, hslot, hl, hcursor⟩ := hr.exists_leaveSlot nofun
  obtain rfl : r.withSlot = l :=
    Except.ok.inj ((Lexer.leaveSlot_eq hr.optional hr.keyAllowed).symm.trans hslot)
  have hforward : r.withSlot.cursor.line ≤ (r.cursor.skip cs.length).line :=
    Cursor.line_le_skip cs.length r.cursor
  have hmoved := (hl.forward hforward false).push (.scalar false text)
  generalize hm : ({ r.withSlot with
    keyAllowed := false
    cursor := r.cursor.skip cs.length }.push (.scalar false text) : Lexer) = m at hmoved
  have hfirst : ({ cursor := { rest := cs ++ ':' :: tail } } : Lexer).step = .ok m := by
    rw [hstep, h.readsScalar_skip hr (by rintro ⟨⟩), hslot, ← hm]
    rfl
  have hplace : m.cursor = r.cursor.skip cs.length := hm ▸ rfl
  have hstale : ∀ key ∈ m.pending, Lexer.isStale m.cursor key.2 = true := by
    intro key hkey
    rw [← hm, Lexer.push] at hkey
    dsimp only at hkey
    rw [Lexer.withSlot, hr.filter_pending, List.mem_singleton] at hkey
    rw [hplace, hkey, Lexer.isStale_newKey hr.rest fun c hc => isBreak_of_printable (hline c hc),
      decide_eq_true hlong]
  have hrest : m.cursor.rest = ':' :: tail := by rw [hplace, Cursor.rest_skip_append hr.rest]
  refine read_of_fault (List.forall_mem_append.mpr ⟨fun c hc => isPermitted_of_printable (hline c hc),
    List.forall_mem_cons.mpr ⟨rfl, hpermitted⟩⟩) (fun c hc => ?_) (.single hfirst hmoved.notDone)
    (by omega) (hmoved.step_misplaced (hm ▸ rfl) hstale hrest hword)
  rw [List.head?_append_of_ne_nil _ h.nonempty] at hc
  exact unmarked_of_printable (hline c (List.mem_of_mem_head? hc))

end DocSchema.Yaml
