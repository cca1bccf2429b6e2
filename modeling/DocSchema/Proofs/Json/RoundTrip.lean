import DocSchema.Proofs.Assoc
import DocSchema.Proofs.Json.Scalars

/-!
# Reading JSON back

A value that is written on several lines is read back as it was. Two kinds of values are left out.
A number that is not finite has no JSON form, and any other number with a fraction is read by
rounding; so the values here hold no floating point numbers at all. And an object with two members
of one key loses one of them in reading.

## The round trip

`readValue?` takes the value off the front of a text, so the statement is about a value with any
text behind it that does not go on with a number. The induction is on how the value is known to be
exact; items and members follow by induction on their lists. In each step the fuel is more than
twice the number of characters that are still to be taken off, which pays for the two nested calls
that one character may ask for.

## Main definitions

* `FloatFree`: a value without floating point numbers
* `Exact`: such a value, in whose objects no key occurs twice

## Main results

* `Exact.read?_pretty`: an exact value is read back
-/

namespace DocSchema.Json

/-- A value holds no floating point number at any depth. -/
inductive FloatFree : Json → Prop
  | null : FloatFree null
  | bool (b : Bool) : FloatFree (bool b)
  | int (n : Int) : FloatFree (int n)
  | text (s : String) : FloatFree (text s)
  | list {items : List Json} : (∀ item ∈ items, FloatFree item) → FloatFree (list items)
  | object {members : List (String × Json)} :
    (∀ member ∈ members, FloatFree member.2) → FloatFree (object members)

/-- A value holds no floating point number, and no object in it has two members of one key. -/
inductive Exact : Json → Prop
  | null : Exact null
  | bool (b : Bool) : Exact (bool b)
  | int (n : Int) : Exact (int n)
  | text (s : String) : Exact (text s)
  | list {items : List Json} : (∀ item ∈ items, Exact item) → Exact (list items)
  | object {members : List (String × Json)} : (members.map Prod.fst).Nodup →
    (∀ member ∈ members, Exact member.2) → Exact (object members)

theorem exact_list_map {α : Type} {f : α → Json} {as : List α} (h : ∀ a ∈ as, (f a).Exact) :
    (list (as.map f)).Exact := by
  refine .list fun j hj => ?_
  obtain ⟨a, ha, rfl⟩ := List.mem_map.mp hj
  exact h a ha

/-! ## White space -/

/-- A text starts with a character that is neither white space nor a closing bracket. -/
def StartsPart (cs : List Char) : Prop :=
  ∃ c rest, cs = c :: rest ∧ c ∉ [' ', '\n', '\r', '\t', ']', '\x7d']

theorem StartsPart.append {cs : List Char} (h : StartsPart cs) (rest : List Char) :
    StartsPart (cs ++ rest) := by
  obtain ⟨c, tail, rfl, hc⟩ := h
  exact ⟨c, tail ++ rest, rfl, hc⟩

theorem StartsPart.skipSpace {cs : List Char} (h : StartsPart cs) : Json.skipSpace cs = cs := by
  obtain ⟨c, tail, rfl, hc⟩ := h
  simp only [List.mem_cons, not_or] at hc
  simp [Json.skipSpace, hc]

theorem skipSpace_newLine (level : Nat) (cs : List Char) :
    skipSpace (newLine level ++ cs) = skipSpace cs := by
  have hspaces : ∀ n, skipSpace (List.replicate n ' ' ++ cs) = skipSpace cs := by
    intro n
    induction n with
    | zero => rfl
    | succ n ih => simpa [skipSpace, List.replicate_succ] using ih
  simpa [newLine, skipSpace] using hspaces (2 * level)

theorem startsPart_textChars (s : String) : StartsPart (textChars s) :=
  ⟨'"', _, rfl, by decide⟩

/-- An integer starts with a minus sign or a digit, and so with no character that has another
meaning at the start of a part. -/
theorem exists_intChars_eq_cons (n : Int) :
    ∃ c rest, intChars n = c :: rest ∧
      c ∉ [' ', '\n', '\r', '\t', ']', '\x7d', '"', '[', '\x7b', 't', 'f', 'n'] := by
  unfold intChars
  split_ifs with hn
  · exact ⟨'-', _, rfl, by decide⟩
  · obtain ⟨d, ds, hd⟩ := List.exists_cons_of_ne_nil (digitChars_ne_nil n.natAbs)
    refine ⟨d, ds, by rw [List.nil_append, hd], fun hmem => ?_⟩
    have hdigit : d.isDigit = true :=
      isDigit_of_mem_digitChars (n := n.natAbs) (hd ▸ List.mem_cons_self)
    have hnone : [' ', '\n', '\r', '\t', ']', '\x7d', '"', '[', '\x7b', 't', 'f', 'n'].any
        Char.isDigit = false := by decide
    exact List.any_eq_false.mp hnone d hmem hdigit

theorem startsPart_intChars (n : Int) : StartsPart (intChars n) := by
  obtain ⟨c, rest, hc, hnone⟩ := exists_intChars_eq_cons n
  refine ⟨c, rest, hc, fun hmem => hnone ?_⟩
  exact List.mem_append_left ['"', '[', '\x7b', 't', 'f', 'n'] hmem

theorem Exact.startsPart {j : Json} (h : Exact j) (level : Nat) :
    StartsPart (prettyChars level j) := by
  cases h with
  | null => exact ⟨'n', _, rfl, by decide⟩
  | bool b => cases b <;> exact ⟨_, _, rfl, by decide⟩
  | int n => exact startsPart_intChars n
  | text s => exact startsPart_textChars s
  | @list items _ => cases items <;> exact ⟨'[', _, rfl, by decide⟩
  | @object members _ _ => cases members <;> exact ⟨'\x7b', _, rfl, by decide⟩

/-! ## Values

`Reads j` is what the induction shows of every part of a value. -/

/-- A value is taken off the front of any text, given enough fuel. -/
def Reads (j : Json) : Prop :=
  ∀ level fuel rest, 2 * (prettyChars level j).length ≤ fuel → EndsNumber rest →
    readValue? fuel (prettyChars level j ++ rest) = some (j, rest)

theorem endsNumber_newLine (level : Nat) (rest : List Char) :
    EndsNumber (newLine level ++ rest) :=
  endsNumber_cons (by decide) (by decide)

theorem reads_int (n : Int) : Reads (int n) := by
  intro level fuel rest hfuel hrest
  obtain ⟨c, tail, hc, hnone⟩ := exists_intChars_eq_cons n
  have hread := number?_intChars n hrest
  rw [prettyChars, hc] at hfuel ⊢
  rw [hc] at hread
  obtain ⟨fuel, rfl⟩ : ∃ m, fuel = m + 1 := ⟨fuel - 1, by rw [List.length_cons] at hfuel; omega⟩
  simp only [List.mem_cons, List.not_mem_nil, or_false, not_or] at hnone
  simpa [readValue?, hnone] using hread

theorem reads_text (s : String) : Reads (text s) := by
  intro level fuel rest hfuel _
  rw [prettyChars, textChars] at hfuel ⊢
  obtain ⟨fuel, rfl⟩ : ∃ m, fuel = m + 1 := ⟨fuel - 1, by rw [List.length_cons] at hfuel; omega⟩
  simp [readValue?, string?_flatMap]

theorem prettyItems_cons_cons (level : Nat) (item next : Json) (items : List Json) :
    prettyItems level (item :: next :: items) =
      prettyChars level item ++ ',' :: (newLine level ++ prettyItems level (next :: items)) := by
  rw [prettyItems]
  exact List.cons_ne_nil next items

theorem prettyMembers_cons_cons (level : Nat) (key : String) (value : Json)
    (next : String × Json) (members : List (String × Json)) :
    prettyMembers level ((key, value) :: next :: members) =
      textChars key ++ ':' :: ' ' :: (prettyChars level value ++
        ',' :: (newLine level ++ prettyMembers level (next :: members))) := by
  rw [prettyMembers]
  exact List.cons_ne_nil next members

theorem startsPart_prettyItems {level : Nat} {item : Json}
    (h : StartsPart (prettyChars level item)) (items : List Json) :
    StartsPart (prettyItems level (item :: items)) := by
  cases items with
  | nil => exact h
  | cons next items =>
    rw [prettyItems_cons_cons]
    exact h.append _

theorem startsPart_prettyMembers (level : Nat) (member : String × Json)
    (members : List (String × Json)) : StartsPart (prettyMembers level (member :: members)) := by
  cases members with
  | nil => exact (startsPart_textChars _).append _
  | cons next members =>
    rw [prettyMembers_cons_cons]
    exact (startsPart_textChars _).append _

/-- The items of a list are read up to the closing bracket on the line after them. -/
theorem readItems?_prettyItems {item : Json} {items : List Json}
    (h : ∀ j ∈ item :: items, Reads j ∧ ∀ level, StartsPart (prettyChars level j))
    (level outer fuel : Nat) (rest : List Char)
    (hfuel : 2 * (prettyItems level (item :: items)).length + 1 ≤ fuel) :
    readItems? fuel (prettyItems level (item :: items) ++ (newLine outer ++ ']' :: rest)) =
      some (item :: items, rest) := by
  induction items generalizing item fuel with
  | nil =>
    rw [prettyItems] at hfuel ⊢
    obtain ⟨fuel, rfl⟩ : ∃ m, fuel = m + 1 := ⟨fuel - 1, by omega⟩
    have hitem := (h item List.mem_cons_self).1 level fuel (newLine outer ++ ']' :: rest)
      (by omega) (endsNumber_newLine _ _)
    simp only [readItems?, hitem, skipSpace_newLine]
    rfl
  | cons next items ih =>
    rw [List.forall_mem_cons] at h
    rw [prettyItems_cons_cons] at hfuel ⊢
    rw [List.length_append, List.length_cons, List.length_append] at hfuel
    obtain ⟨fuel, rfl⟩ : ∃ m, fuel = m + 1 := ⟨fuel - 1, by omega⟩
    have hitem := h.1.1 level fuel (',' :: (newLine level ++ prettyItems level (next :: items)
      ++ (newLine outer ++ ']' :: rest))) (by omega) (endsNumber_cons (by decide) (by decide))
    have hstart := startsPart_prettyItems ((h.2 next List.mem_cons_self).2 level) items
    have hrest := ih h.2 fuel (by omega)
    simp only [List.append_assoc, List.cons_append] at hitem ⊢
    simp only [readItems?, hitem]
    rw [show skipSpace (',' :: _) = ',' :: _ from rfl]
    simp only [skipSpace_newLine, (hstart.append _).skipSpace, hrest]
    rfl

/-- After a member it depends on the next mark whether there are more of them. -/
theorem readMembers?_member (key : String) {value : Json} (hreads : Reads value)
    {level : Nat} (hstart : StartsPart (prettyChars level value)) {fuel : Nat} {tail : List Char}
    (hfuel : 2 * (prettyChars level value).length ≤ fuel) (htail : EndsNumber tail) :
    readMembers? (fuel + 1) (textChars key ++ ':' :: ' ' :: (prettyChars level value ++ tail)) =
      match skipSpace tail with
      | ',' :: rest =>
        (readMembers? fuel (skipSpace rest)).map fun (members, rest) =>
          ((key, value) :: members, rest)
      | '\x7d' :: rest => some ([(key, value)], rest)
      | _ => none := by
  have hspace : skipSpace (' ' :: (prettyChars level value ++ tail)) =
      prettyChars level value ++ tail := (hstart.append tail).skipSpace
  simp only [textChars, List.cons_append, List.append_assoc, List.nil_append, readMembers?,
    string?_flatMap]
  rw [show skipSpace (':' :: _) = ':' :: _ from rfl]
  simp only [hspace]
  generalize hread : readValue? fuel (prettyChars level value ++ tail) = found
  rw [hreads level fuel tail hfuel htail] at hread
  subst hread
  rfl

/-- The members of an object are read up to the closing brace on the line after them. -/
theorem readMembers?_prettyMembers {member : String × Json} {members : List (String × Json)}
    (h : ∀ m ∈ member :: members, Reads m.2 ∧ ∀ level, StartsPart (prettyChars level m.2))
    (level outer fuel : Nat) (rest : List Char)
    (hfuel : 2 * (prettyMembers level (member :: members)).length + 1 ≤ fuel) :
    readMembers? fuel (prettyMembers level (member :: members) ++ (newLine outer ++ '\x7d' :: rest))
      = some (member :: members, rest) := by
  induction members generalizing member fuel with
  | nil =>
    obtain ⟨key, value⟩ := member
    obtain ⟨hreads, hstart⟩ := h (key, value) List.mem_cons_self
    rw [prettyMembers] at hfuel ⊢
    simp only [List.length_append, List.length_cons] at hfuel
    obtain ⟨fuel, rfl⟩ : ∃ m, fuel = m + 1 := ⟨fuel - 1, by omega⟩
    rw [List.append_assoc, List.cons_append, List.cons_append,
      readMembers?_member key hreads (hstart level) (by dsimp only; omega) (endsNumber_newLine _ _),
      skipSpace_newLine]
    rfl
  | cons next members ih =>
    obtain ⟨key, value⟩ := member
    rw [List.forall_mem_cons] at h
    obtain ⟨⟨hreads, hstart⟩, hmore⟩ := h
    rw [prettyMembers_cons_cons] at hfuel ⊢
    simp only [List.length_append, List.length_cons] at hfuel
    obtain ⟨fuel, rfl⟩ : ∃ m, fuel = m + 1 := ⟨fuel - 1, by omega⟩
    have hnext := startsPart_prettyMembers level next members
    simp only [List.append_assoc, List.cons_append]
    rw [readMembers?_member key hreads (hstart level) (by dsimp only; omega)
      (endsNumber_cons (by decide) (by decide)), show skipSpace (',' :: _) = ',' :: _ from rfl]
    simp only [skipSpace_newLine, (hnext.append _).skipSpace, ih hmore fuel (by omega)]
    rfl

/-- A list that does not close at once has items. -/
theorem readValue?_list {cs : List Char} (h : StartsPart cs) (fuel level : Nat) :
    readValue? (fuel + 1) ('[' :: (newLine level ++ cs)) =
      (readItems? fuel cs).map fun (items, rest) => (list items, rest) := by
  rw [readValue?, skipSpace_newLine, h.skipSpace]
  obtain ⟨c, rest, rfl, hc⟩ := h
  split
  · rename_i heq
    cases heq
    exact absurd (by decide) hc
  · rfl

/-- An object that does not close at once has members. -/
theorem readValue?_object {cs : List Char} (h : StartsPart cs) (fuel level : Nat) :
    readValue? (fuel + 1) ('\x7b' :: (newLine level ++ cs)) =
      (readMembers? fuel cs).map fun (members, rest) =>
        (object (Assoc.ofList (· == ·) members), rest) := by
  rw [readValue?, skipSpace_newLine, h.skipSpace]
  obtain ⟨c, rest, rfl, hc⟩ := h
  split
  · rename_i heq
    cases heq
    exact absurd (by decide) hc
  · rfl

theorem reads_list {items : List Json}
    (h : ∀ j ∈ items, Reads j ∧ ∀ level, StartsPart (prettyChars level j)) :
    Reads (list items) := by
  intro level fuel rest hfuel _
  cases items with
  | nil =>
    obtain ⟨fuel, rfl⟩ : ∃ m, fuel = m + 1 := ⟨fuel - 1, by simp [prettyChars] at hfuel; omega⟩
    rfl
  | cons item items =>
    rw [prettyChars] at hfuel ⊢
    simp only [List.length_append, List.length_cons] at hfuel
    obtain ⟨fuel, rfl⟩ : ∃ m, fuel = m + 1 := ⟨fuel - 1, by omega⟩
    have hstart := startsPart_prettyItems ((h item List.mem_cons_self).2 (level + 1)) items
    simp only [List.cons_append, List.append_assoc, List.nil_append]
    rw [readValue?_list (hstart.append _),
      readItems?_prettyItems h (level + 1) level fuel rest (by omega), Option.map_some]

theorem reads_object {members : List (String × Json)} (hkeys : (members.map Prod.fst).Nodup)
    (h : ∀ m ∈ members, Reads m.2 ∧ ∀ level, StartsPart (prettyChars level m.2)) :
    Reads (object members) := by
  intro level fuel rest hfuel _
  cases members with
  | nil =>
    obtain ⟨fuel, rfl⟩ : ∃ m, fuel = m + 1 := ⟨fuel - 1, by simp [prettyChars] at hfuel; omega⟩
    rfl
  | cons member members =>
    rw [prettyChars] at hfuel ⊢
    simp only [List.length_append, List.length_cons] at hfuel
    obtain ⟨fuel, rfl⟩ : ∃ m, fuel = m + 1 := ⟨fuel - 1, by omega⟩
    have hstart := startsPart_prettyMembers (level + 1) member members
    simp only [List.cons_append, List.append_assoc, List.nil_append]
    rw [readValue?_object (hstart.append _),
      readMembers?_prettyMembers h (level + 1) level fuel rest (by omega), Option.map_some]
    dsimp only
    rw [Assoc.ofList_eq_self hkeys]

/-- An exact value is taken off the front of any text. -/
theorem Exact.reads {j : Json} (h : Exact j) : Reads j := by
  induction h with
  | null =>
    intro level fuel rest hfuel _
    obtain ⟨fuel, rfl⟩ : ∃ m, fuel = m + 1 := ⟨fuel - 1, by simp [prettyChars] at hfuel; omega⟩
    rfl
  | bool b =>
    intro level fuel rest hfuel _
    cases b with
    | true =>
      obtain ⟨fuel, rfl⟩ : ∃ m, fuel = m + 1 := ⟨fuel - 1, by simp [prettyChars] at hfuel; omega⟩
      rfl
    | false =>
      obtain ⟨fuel, rfl⟩ : ∃ m, fuel = m + 1 := ⟨fuel - 1, by simp [prettyChars] at hfuel; omega⟩
      rfl
  | int n => exact reads_int n
  | text s => exact reads_text s
  | list hitems ih => exact reads_list fun j hj => ⟨ih j hj, (hitems j hj).startsPart⟩
  | object hkeys hmembers ih =>
    exact reads_object hkeys fun m hm => ⟨ih m hm, (hmembers m hm).startsPart⟩

/-- **An exact value is read back from its text.** -/
theorem Exact.read?_pretty {j : Json} (h : Exact j) : read? j.pretty = some j := by
  have hread := h.reads 0 (2 * (prettyChars 0 j).length + 2) [] (by omega) endsNumber_nil
  rw [List.append_nil] at hread
  simp only [read?, pretty, String.toList_ofList, (h.startsPart 0).skipSpace, hread]
  rfl

/-- Two exact values with one text are equal. -/
theorem Exact.eq_of_pretty_eq {i j : Json} (hi : Exact i) (hj : Exact j) (h : i.pretty = j.pretty) :
    i = j := by
  have hread := hi.read?_pretty
  rw [h, hj.read?_pretty] at hread
  exact (Option.some.inj hread).symm

end DocSchema.Json
