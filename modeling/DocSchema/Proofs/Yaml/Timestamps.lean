import DocSchema.Proofs.Text.Span
import DocSchema.Proofs.Yaml.Numbers
import Mathlib.Algebra.Group.Nat.Defs

/-!
# Dates and times that are written and read

A date is written with all its digits, and so is a time of day. The fraction of a second has six
digits or is missing, and a zone is written as hours and minutes. The reader takes all of these, and
more: it also knows shorter forms, which are never written.

## Main definitions

* `IsPadded`: digits of a fixed width
* `DateTime.Proper`: what a written time can say

## Main results

* `Scalar.timestamp_date`, `Scalar.timestamp_datetime`: what is written is read back
* `Tag.ofPlain_date`, `Tag.ofPlain_datetime`: and it is a time by its form alone
-/

namespace DocSchema

open Number (Binary64)

/-! ## Digits of a fixed width -/

/-- Some digits that stand for a number, with zeros in front. -/
structure IsPadded (width n : Nat) (cs : List Char) : Prop where
  length : cs.length = width
  isDigit : ∀ c ∈ cs, c.isDigit = true
  value : Binary64.digitsValue cs = n

/-- A padded number opens with a digit. -/
theorem IsPadded.exists_cons {width n : Nat} {cs : List Char} (h : IsPadded (width + 1) n cs) :
    ∃ c rest, cs = c :: rest ∧ c.isDigit = true := by
  obtain ⟨c, rest, rfl⟩ := List.exists_cons_of_length_eq_add_one h.length
  exact ⟨c, rest, rfl, h.isDigit c List.mem_cons_self⟩

theorem isPadded_zeroPadded {width n : Nat} (hwidth : 0 < width) (h : n < 10 ^ width) :
    IsPadded width n (zeroPadded width n).toList := by
  have hlength := (Nat.length_toDigits_le_iff (by decide) hwidth).mpr h
  rw [zeroPadded, String.toList_ofList]
  refine ⟨?_, fun c hc => ?_, ?_⟩
  · rw [List.length_append, List.length_replicate]
    omega
  · rcases List.mem_append.mp hc with hc | hc
    · rw [List.eq_of_mem_replicate hc]
      rfl
    · exact Json.isDigit_of_mem_digitChars hc
  · rw [Json.digitsValue_replicate]
    exact Json.digitsValue_digitChars n

/-! ## Written forms -/

/-- The written form of a date of the calendar. -/
theorem Date.exists_iso {d : Date} (h : d.fault? = none) :
    ∃ ys ms ds, IsPadded 4 d.year ys ∧ IsPadded 2 d.month ms ∧ IsPadded 2 d.day ds ∧
      d.iso.toList = ys ++ '-' :: (ms ++ '-' :: ds) := by
  have hdays : daysIn d.year d.month ≤ 31 := by
    rw [daysIn]
    split_ifs <;> decide
  rw [fault?] at h
  split_ifs at h with hyear hmonth hday
  refine ⟨_, _, _, isPadded_zeroPadded (by decide) (by omega), isPadded_zeroPadded (by decide) (by omega),
    isPadded_zeroPadded (by decide) (by omega), ?_⟩
  simp [iso]

/-- A time has parts in their ranges, and a fraction of a second in whole microseconds. -/
structure TimeOfDay.Proper (t : TimeOfDay) : Prop where
  fault : t.fault? = none
  microsecond : t.microsecond < 1000000

/-- The written form of a fraction of a second, or nothing. -/
def IsFractionText (microsecond : Nat) (cs : List Char) : Prop :=
  microsecond = 0 ∧ cs = [] ∨ ∃ us, IsPadded 6 microsecond us ∧ cs = '.' :: us

/-- The written form of a time of day. -/
theorem TimeOfDay.Proper.exists_iso {t : TimeOfDay} (h : t.Proper) :
    ∃ hs ms ss fs, IsPadded 2 t.hour hs ∧ IsPadded 2 t.minute ms ∧ IsPadded 2 t.second ss ∧
      IsFractionText t.microsecond fs ∧ t.iso.toList = hs ++ ':' :: (ms ++ ':' :: (ss ++ fs)) := by
  obtain ⟨hfault, hmicro⟩ := h
  rw [fault?] at hfault
  split_ifs at hfault with hhour hminute hsecond
  have hparts := fun n (hn : n < 100) => @isPadded_zeroPadded 2 n (by decide) hn
  refine ⟨_, _, _, (if t.microsecond = 0 then "" else "." ++ zeroPadded 6 t.microsecond).toList,
    hparts _ (by omega), hparts _ (by omega), hparts _ (by omega), ?_, by simp [iso]⟩
  split_ifs with hzero
  · exact .inl ⟨hzero, rfl⟩
  · exact .inr ⟨_, isPadded_zeroPadded (by decide) (by omega), String.toList_append⟩

/-- A zone is less than a day away, in whole minutes. -/
structure ProperOffset (seconds : Int) : Prop where
  lt : seconds.natAbs < 86400
  minutes : seconds.natAbs % 60 = 0

/-- The written form of a zone. -/
theorem ProperOffset.exists_iso {seconds : Int} (h : ProperOffset seconds) :
    ∃ hs ms, IsPadded 2 (seconds.natAbs / 3600) hs ∧ IsPadded 2 (seconds.natAbs / 60 % 60) ms ∧
      (DateTime.offsetIso seconds).toList =
        (if seconds < 0 then '-' else '+') :: (hs ++ ':' :: ms) := by
  obtain ⟨hlt, hminutes⟩ := h
  refine ⟨_, _, isPadded_zeroPadded (by decide) (by omega), isPadded_zeroPadded (by decide) (by omega), ?_⟩
  rw [DateTime.offsetIso, hminutes, if_pos rfl]
  split_ifs <;> simp

/-- A time with a date says what a written time can say: its parts are in their ranges, and its
zone is given in whole minutes. -/
structure DateTime.Proper (t : DateTime) : Prop where
  fault : Yaml.Timestamp.dateTimeFault? t = none
  microsecond : t.time.microsecond < 1000000
  minutes : ∀ seconds ∈ t.offset, seconds.natAbs % 60 = 0

/-- The parts of such a time. -/
theorem DateTime.Proper.parts {t : DateTime} (h : t.Proper) :
    t.date.fault? = none ∧ t.time.Proper ∧ ∀ seconds ∈ t.offset, ProperOffset seconds := by
  obtain ⟨hfault, hmicro, hminutes⟩ := h
  rw [Yaml.Timestamp.dateTimeFault?, Option.or_eq_none_iff, Option.or_eq_none_iff] at hfault
  obtain ⟨⟨hzone, hdate⟩, htime⟩ := hfault
  refine ⟨hdate, ⟨htime, hmicro⟩, fun seconds hseconds => ⟨?_, hminutes seconds hseconds⟩⟩
  rw [Option.mem_def.mp hseconds] at hzone
  dsimp only at hzone
  split_ifs at hzone with hlong
  exact Nat.not_le.mp hlong

/-- The written form of the zone of a time, or nothing. -/
def DateTime.zoneChars (t : DateTime) : List Char := ((t.offset.map offsetIso).getD "").toList

theorem DateTime.toList_isoWith (t : DateTime) :
    (t.isoWith " ").toList = t.date.iso.toList ++ ' ' :: (t.time.iso.toList ++ t.zoneChars) := by
  simp [isoWith, zoneChars]

namespace Yaml

namespace Timestamp

variable {n : Nat} {cs rest : List Char}

theorem twoDigits?_eq (h : IsPadded 2 n cs) : twoDigits? (cs ++ rest) = some (n, rest) := by
  obtain ⟨hlength, hdigit, hvalue⟩ := h
  obtain ⟨a, b, rfl⟩ := List.length_eq_two.mp hlength
  have hboth : (a.isDigit && b.isDigit) = true := by
    rw [hdigit a (by simp), hdigit b (by simp)]
    rfl
  show (if a.isDigit && b.isDigit then some (Binary64.digitsValue [a, b], rest) else none) = _
  rw [hboth, if_pos rfl, hvalue]

theorem upToTwoDigits?_eq (h : IsPadded 2 n cs) :
    upToTwoDigits? (cs ++ rest) = some (n, rest) := by
  obtain ⟨hlength, hdigit, hvalue⟩ := h
  obtain ⟨a, b, rfl⟩ := List.length_eq_two.mp hlength
  show (if a.isDigit then
    if b.isDigit then some (Binary64.digitsValue [a, b], rest) else _ else none) = _
  rw [hdigit a (by simp), hdigit b (by simp), if_pos rfl, if_pos rfl, hvalue]

theorem fourDigits?_eq (h : IsPadded 4 n cs) : fourDigits? (cs ++ rest) = some (n, rest) := by
  obtain ⟨hlength, hdigit, hvalue⟩ := h
  obtain ⟨a, b, c, d, rfl⟩ : ∃ a b c d, cs = [a, b, c, d] := by
    match cs, hlength with
    | [a, b, c, d], _ => exact ⟨a, b, c, d, rfl⟩
  have hhigh : IsPadded 2 (Binary64.digitsValue [a, b]) [a, b] :=
    ⟨rfl, fun e he => hdigit e (List.mem_append_left [c, d] he), rfl⟩
  have hlow : IsPadded 2 (Binary64.digitsValue [c, d]) [c, d] :=
    ⟨rfl, fun e he => hdigit e (List.mem_append_right [a, b] he), rfl⟩
  have hfirst := @twoDigits?_eq _ _ ([c, d] ++ rest) hhigh
  have hsecond := @twoDigits?_eq _ _ rest hlow
  have htotal : Binary64.digitsValue [a, b] * 100 + Binary64.digitsValue [c, d] = n := by
    rw [← hvalue]
    simp only [Binary64.digitsValue, List.foldl_cons, List.foldl_nil]
    omega
  show (twoDigits? ([a, b] ++ ([c, d] ++ rest))).bind _ = _
  rw [hfirst, Option.bind_some]
  show (twoDigits? ([c, d] ++ rest)).bind _ = _
  rw [hsecond, Option.bind_some]
  exact congrArg (fun m => some (m, rest)) htotal

/-- A date with what stands behind it. -/
theorem parse?_iso {d : Date} (h : d.fault? = none) (rest : List Char) :
    parse? (d.iso.toList ++ rest) =
      (clockPart? rest).map fun clock => ⟨d.year, d.month, d.day, clock⟩ := by
  obtain ⟨ys, ms, ds, hyear, hmonth, hday, hiso⟩ := Date.exists_iso h
  rw [hiso, List.append_assoc, List.cons_append, List.append_assoc, List.cons_append, parse?,
    fourDigits?_eq hyear]
  show (upToTwoDigits? (ms ++ '-' :: (ds ++ rest))).bind _ = _
  rw [upToTwoDigits?_eq hmonth]
  show (upToTwoDigits? (ds ++ rest)).bind _ = _
  rw [upToTwoDigits?_eq hday]
  show (clockPart? rest).bind _ = _
  cases clockPart? rest with
  | none => rfl
  | some clock => rfl

/-- A zone up to the end of the text. -/
theorem zone?_offsetIso {seconds : Int} (h : ProperOffset seconds) :
    ∃ zone, zone? (DateTime.offsetIso seconds).toList = some (some zone) ∧
      zoneSeconds zone = seconds := by
  obtain ⟨hs, ms, hhours, hminutes, hiso⟩ := h.exists_iso
  have hmod := h.minutes
  refine ⟨.offset (decide (seconds < 0)) (seconds.natAbs / 3600) (seconds.natAbs / 60 % 60), ?_, ?_⟩
  · have hread : ∀ sign, sign = '+' ∨ sign = '-' → zone? (sign :: (hs ++ ':' :: ms)) =
        some (some (.offset (sign == '-') (seconds.natAbs / 3600) (seconds.natAbs / 60 % 60))) := by
      intro sign hsign
      have htail := @twoDigits?_eq _ _ [] hminutes
      rw [List.append_nil] at htail
      rcases hsign with rfl | rfl
      all_goals
        show (upToTwoDigits? (hs ++ ':' :: ms)).bind _ = _
        rw [upToTwoDigits?_eq hhours]
        show (twoDigits? ms).bind _ = _
        rw [htail]
        rfl
    rw [hiso]
    split_ifs with hneg
    · rw [hread '-' (.inr rfl), decide_eq_true hneg]
      rfl
    · rw [hread '+' (.inl rfl), decide_eq_false hneg]
      rfl
  · rw [zoneSeconds]
    split_ifs with hneg
    · rw [decide_eq_true_eq] at hneg
      omega
    · rw [decide_eq_true_eq] at hneg
      omega

section Clock

variable {hour minute second : Nat} {hs ms ss : List Char} {zone : Option ZoneParts} {cs : List Char}

/-- A time of day in whole seconds. -/
theorem clock?_whole (hhour : IsPadded 2 hour hs) (hminute : IsPadded 2 minute ms)
    (hsecond : IsPadded 2 second ss) (hzone : zone? cs = some zone) (hcs : cs.head? ≠ some '.') :
    clock? (hs ++ ':' :: (ms ++ ':' :: (ss ++ cs))) = some ⟨hour, minute, second, [], zone⟩ := by
  rw [clock?, upToTwoDigits?_eq hhour]
  show (twoDigits? (ms ++ ':' :: (ss ++ cs))).bind _ = _
  rw [twoDigits?_eq hminute]
  show (twoDigits? (ss ++ cs)).bind _ = _
  rw [twoDigits?_eq hsecond, Option.bind_some]
  dsimp only
  split
  · exact absurd rfl hcs
  · show (zone? cs).bind _ = _
    rw [hzone]
    rfl

/-- A time of day with a fraction of a second. -/
theorem clock?_fraction {us : List Char} (hhour : IsPadded 2 hour hs) (hminute : IsPadded 2 minute ms)
    (hsecond : IsPadded 2 second ss) (hus : ∀ c ∈ us, c.isDigit = true)
    (hzone : zone? cs = some zone) (hcs : ∀ c ∈ cs.head?, c.isDigit = false) :
    clock? (hs ++ ':' :: (ms ++ ':' :: (ss ++ '.' :: (us ++ cs)))) =
      some ⟨hour, minute, second, us, zone⟩ := by
  rw [clock?, upToTwoDigits?_eq hhour]
  show (twoDigits? (ms ++ ':' :: (ss ++ '.' :: (us ++ cs)))).bind _ = _
  rw [twoDigits?_eq hminute]
  show (twoDigits? (ss ++ '.' :: (us ++ cs))).bind _ = _
  rw [twoDigits?_eq hsecond]
  show (zone? ((us ++ cs).dropWhile Char.isDigit)).bind _ = _
  rw [Text.dropWhile_span hus hcs, hzone]
  show some (⟨hour, minute, second, (us ++ cs).takeWhile Char.isDigit, zone⟩ : ClockParts) = _
  rw [Text.takeWhile_span hus hcs]

/-- A time of day up to the end of the text. -/
theorem clock?_iso {t : TimeOfDay} (h : t.Proper) (hzone : zone? cs = some zone)
    (hcs : ∀ c ∈ cs.head?, c.isDigit = false ∧ c ≠ '.') :
    ∃ fraction, clock? (t.iso.toList ++ cs) =
        some ⟨t.hour, t.minute, t.second, fraction, zone⟩ ∧
      microseconds fraction = t.microsecond := by
  obtain ⟨hs, ms, ss, fs, hhour, hminute, hsecond, hfraction, hiso⟩ := h.exists_iso
  rw [hiso, List.append_assoc, List.cons_append, List.append_assoc, List.cons_append,
    List.append_assoc]
  rcases hfraction with ⟨hzero, rfl⟩ | ⟨us, ⟨hlength, hdigit, hvalue⟩, rfl⟩
  · exact ⟨[], clock?_whole hhour hminute hsecond hzone fun hpoint => (hcs '.' hpoint).2 rfl,
      hzero.symm ▸ rfl⟩
  · refine ⟨us, clock?_fraction hhour hminute hsecond hdigit hzone fun c hc => (hcs c hc).1, ?_⟩
    rw [microseconds, List.take_append_of_le_length (Nat.le_of_eq hlength.symm),
      List.take_of_length_le (Nat.le_of_eq hlength), hvalue]

end Clock

end Timestamp

/-! ## Characters -/

/-- The characters of written dates and times. -/
def isTimeChar (c : Char) : Bool := c.isDigit || [' ', '-', ':', '.', '+'].contains c

theorem isTimeChar_of_isDigit {c : Char} (h : c.isDigit = true) : isTimeChar c = true := by
  rw [isTimeChar, h, Bool.true_or]

theorem isTimeChar_padded {width n : Nat} {cs : List Char} (h : IsPadded width n cs) :
    ∀ c ∈ cs, isTimeChar c = true := fun c hc => isTimeChar_of_isDigit (h.isDigit c hc)

theorem isTimeChar_iso {d : Date} (h : d.fault? = none) :
    ∀ c ∈ d.iso.toList, isTimeChar c = true := by
  obtain ⟨ys, ms, ds, hyear, hmonth, hday, hiso⟩ := Date.exists_iso h
  rw [hiso]
  exact List.forall_mem_append.mpr ⟨isTimeChar_padded hyear, List.forall_mem_cons.mpr ⟨rfl,
    List.forall_mem_append.mpr ⟨isTimeChar_padded hmonth, List.forall_mem_cons.mpr ⟨rfl,
      isTimeChar_padded hday⟩⟩⟩⟩

theorem isTimeChar_timeIso {t : TimeOfDay} (h : t.Proper) :
    ∀ c ∈ t.iso.toList, isTimeChar c = true := by
  obtain ⟨hs, ms, ss, fs, hhour, hminute, hsecond, hfraction, hiso⟩ := h.exists_iso
  have hlast : ∀ c ∈ fs, isTimeChar c = true := by
    rcases hfraction with ⟨-, rfl⟩ | ⟨us, hus, rfl⟩
    · exact nofun
    · exact List.forall_mem_cons.mpr ⟨rfl, isTimeChar_padded hus⟩
  rw [hiso]
  exact List.forall_mem_append.mpr ⟨isTimeChar_padded hhour, List.forall_mem_cons.mpr ⟨rfl,
    List.forall_mem_append.mpr ⟨isTimeChar_padded hminute, List.forall_mem_cons.mpr ⟨rfl,
      List.forall_mem_append.mpr ⟨isTimeChar_padded hsecond, hlast⟩⟩⟩⟩⟩

theorem isTimeChar_offsetIso {seconds : Int} (h : ProperOffset seconds) :
    ∀ c ∈ (DateTime.offsetIso seconds).toList, isTimeChar c = true := by
  obtain ⟨hs, ms, hhours, hminutes, hiso⟩ := h.exists_iso
  rw [hiso]
  refine List.forall_mem_cons.mpr ⟨?_, List.forall_mem_append.mpr ⟨isTimeChar_padded hhours,
    List.forall_mem_cons.mpr ⟨rfl, isTimeChar_padded hminutes⟩⟩⟩
  split_ifs <;> rfl

theorem getLast?_ne_newline {cs : List Char} (h : ∀ c ∈ cs, isTimeChar c = true) :
    (cs.getLast? == some '\n') = false := by
  rw [beq_eq_false_iff_ne]
  intro hlast
  have hnewline := h '\n' (List.mem_of_getLast? hlast)
  cases hnewline

theorem isTimeChar_zoneChars {t : DateTime} (h : ∀ seconds ∈ t.offset, ProperOffset seconds) :
    ∀ c ∈ t.zoneChars, isTimeChar c = true := by
  rw [DateTime.zoneChars]
  cases hoffset : t.offset with
  | none => exact nofun
  | some seconds => exact isTimeChar_offsetIso (h seconds hoffset)

theorem isTimeChar_isoWith {t : DateTime} (h : t.Proper) :
    ∀ c ∈ (t.isoWith " ").toList, isTimeChar c = true := by
  obtain ⟨hdate, htime, hzone⟩ := h.parts
  rw [t.toList_isoWith]
  exact List.forall_mem_append.mpr ⟨isTimeChar_iso hdate, List.forall_mem_cons.mpr ⟨rfl,
    List.forall_mem_append.mpr ⟨isTimeChar_timeIso htime, isTimeChar_zoneChars hzone⟩⟩⟩

/-! ## Values -/

/-- A written date is read back. -/
theorem Scalar.timestamp_date {d : Date} (h : d.fault? = none) :
    timestamp d.iso = .ok (.date d) := by
  have hparse := Timestamp.parse?_iso h []
  rw [List.append_nil] at hparse
  rw [timestamp, getLast?_ne_newline (isTimeChar_iso h)]
  simp only [Bool.false_eq_true, if_false, hparse, Timestamp.clockPart?, Option.map_some, h]

/-- The parts of a written time with a date. -/
theorem Timestamp.parse?_isoWith {t : DateTime} (h : t.Proper) :
    ∃ fraction zone, parse? (t.isoWith " ").toList =
        some ⟨t.date.year, t.date.month, t.date.day,
          some ⟨t.time.hour, t.time.minute, t.time.second, fraction, zone⟩⟩ ∧
      microseconds fraction = t.time.microsecond ∧ zone.map zoneSeconds = t.offset := by
  obtain ⟨hdate, htime, hoffset⟩ := h.parts
  have hzone : ∃ zone, zone? t.zoneChars = some zone ∧ zone.map zoneSeconds = t.offset ∧
      ∀ c ∈ t.zoneChars.head?, c.isDigit = false ∧ c ≠ '.' := by
    rw [DateTime.zoneChars]
    cases hsome : t.offset with
    | none => exact ⟨none, rfl, rfl, nofun⟩
    | some seconds =>
      obtain ⟨zone, hread, hseconds⟩ := zone?_offsetIso (hoffset seconds hsome)
      obtain ⟨hs, ms, -, -, hiso⟩ := (hoffset seconds hsome).exists_iso
      refine ⟨some zone, hread, congrArg some hseconds, fun c hc => ?_⟩
      rw [Option.map_some, Option.getD_some, hiso] at hc
      obtain rfl := Option.some.inj hc
      split_ifs <;> decide
  obtain ⟨zone, hread, hseconds, hhead⟩ := hzone
  obtain ⟨fraction, hclock, hmicro⟩ := clock?_iso htime hread hhead
  refine ⟨fraction, zone, ?_, hmicro, hseconds⟩
  have hskip : dropSpaces (t.time.iso.toList ++ t.zoneChars) = t.time.iso.toList ++ t.zoneChars := by
    obtain ⟨hs, ms, ss, fs, hhour, -, -, -, hiso⟩ := htime.exists_iso
    obtain ⟨c, rest, rfl, hc⟩ := hhour.exists_cons
    have hblank : ¬ (c == ' ' || c == '\t') = true := by
      rw [beq_eq_false_iff_ne.mpr (ne_of_isDigit hc rfl), beq_eq_false_iff_ne.mpr (ne_of_isDigit hc rfl)]
      exact Bool.false_ne_true
    rw [hiso, dropSpaces]
    exact List.dropWhile_cons_of_neg hblank
  rw [t.toList_isoWith, parse?_iso hdate]
  show ((clock? (dropSpaces (t.time.iso.toList ++ t.zoneChars))).map some).map _ = _
  rw [hskip, hclock]
  rfl

/-- A written time with a date is read back. -/
theorem Scalar.timestamp_datetime {t : DateTime} (h : t.Proper) :
    timestamp (t.isoWith " ") = .ok (.datetime t) := by
  obtain ⟨fraction, zone, hparse, hmicro, hzone⟩ := Timestamp.parse?_isoWith h
  rw [timestamp, getLast?_ne_newline (isTimeChar_isoWith h)]
  simp only [Bool.false_eq_true, if_false, hparse, hmicro, hzone]
  rw [h.fault]

/-! ## Tags -/

/-- The digits in front of a hyphen are neither a floating point number nor an integer with it. -/
theorem Tag.splitColons_hyphen {ys more : List Char} (h : ∀ c ∈ ys, c.isDigit = true) :
    ∃ word parts, splitColons (ys ++ '-' :: more) = (ys ++ '-' :: word) :: parts := by
  induction ys with
  | nil =>
    obtain ⟨word, parts, hparts⟩ : ∃ word parts, splitColons more = word :: parts := by
      cases more with
      | nil => exact ⟨[], [], rfl⟩
      | cons c more =>
        rw [splitColons]
        split_ifs
        · exact ⟨_, _, rfl⟩
        · split <;> exact ⟨_, _, rfl⟩
    refine ⟨word, parts, ?_⟩
    rw [List.nil_append, splitColons, hparts]
    rfl
  | cons c ys ih =>
    rw [List.forall_mem_cons] at h
    obtain ⟨word, parts, hparts⟩ := ih h.2
    refine ⟨word, parts, ?_⟩
    rw [List.cons_append, splitColons, if_neg (ne_of_isDigit h.1 rfl), hparts]
    rfl

theorem Tag.isDigits_hyphen (ys word : List Char) : isDigits (ys ++ '-' :: word) = false := by
  rw [← Bool.not_eq_true]
  intro h
  have hall : ∀ c ∈ ys ++ '-' :: word, isDigitOrUnderscore c = true := by
    cases hcs : ys ++ '-' :: word with
    | nil => exact nofun
    | cons c rest =>
      rw [hcs, isDigits, Bool.and_eq_true] at h
      refine List.forall_mem_cons.mpr ⟨isDigitOrUnderscore_of_isDigit h.1, List.all_eq_true.mp h.2⟩
  have hhyphen := hall '-' (List.mem_append_right ys List.mem_cons_self)
  cases hhyphen

theorem Tag.dropSign_of_isDigit {c : Char} (hc : c.isDigit = true) (rest : List Char) :
    dropSign (c :: rest) = c :: rest :=
  @dropSign_signChars false (c :: rest) fun d hd => by
    obtain rfl := Option.some.inj hd
    exact hc

theorem Tag.isFloat_hyphen {c : Char} {ys : List Char} (hdigits : ∀ d ∈ c :: ys, d.isDigit = true)
    (more : List Char) : isFloat (c :: ys ++ '-' :: more) = false := by
  have hc := hdigits c List.mem_cons_self
  have hsign : dropSign (c :: ys ++ '-' :: more) = c :: ys ++ '-' :: more := dropSign_of_isDigit hc _
  have hdecimal : isDecimal (c :: ys ++ '-' :: more) = false := by
    have hdrop : (c :: ys ++ '-' :: more).dropWhile isDigitOrUnderscore = '-' :: more := by
      rw [List.dropWhile_append_of_pos fun d hd => isDigitOrUnderscore_of_isDigit (hdigits d hd)]
      rfl
    rw [isDecimal, hdrop]
    rfl
  have hsexagesimal : isSexagesimalFloat (c :: ys ++ '-' :: more) = false := by
    have htake : (c :: ys ++ '-' :: more).takeWhile (· != '.') =
        c :: ys ++ '-' :: more.takeWhile (· != '.') := by
      rw [List.takeWhile_append_of_pos fun d hd => bne_iff_ne.mpr (ne_of_isDigit (hdigits d hd) rfl)]
      rfl
    obtain ⟨word, parts, hparts⟩ := @splitColons_hyphen _ (more.takeWhile (· != '.')) hdigits
    rw [isSexagesimalFloat, htake, hparts]
    split
    · cases parts with
      | nil => exact Bool.and_false _
      | cons part parts =>
        dsimp only
        rw [isDigits_hyphen, Bool.false_and, Bool.and_false]
    · rfl
  unfold isFloat
  dsimp only
  rw [hsign, hdecimal, hsexagesimal, List.cons_append, contains_eq_false (by decide) (.inl hc),
    contains_eq_false (by decide) (.inl hc)]
  split
  · next heq => exact absurd (List.cons.inj heq).1 (ne_of_isDigit hc rfl)
  · rfl

theorem Tag.isInt_hyphen {c : Char} {ys : List Char} (hdigits : ∀ d ∈ c :: ys, d.isDigit = true)
    (more : List Char) : isInt (c :: ys ++ '-' :: more) = false := by
  have hsign : dropSign (c :: ys ++ '-' :: more) = c :: ys ++ '-' :: more :=
    dropSign_of_isDigit (hdigits c List.mem_cons_self) _
  obtain ⟨word, parts, hparts⟩ := @splitColons_hyphen _ more hdigits
  have hsecond : ∀ d rest, ys ++ '-' :: more = d :: rest → d.isDigit = true ∨ d = '-' := by
    intro d rest heq
    cases ys with
    | nil => exact .inr (List.cons.inj heq).1.symm
    | cons e ys =>
      obtain rfl := (List.cons.inj heq).1
      exact .inl (hdigits e (by simp))
  have hletter : ∀ d rest, d.isDigit = false → d ≠ '-' → ys ++ '-' :: more ≠ d :: rest := by
    intro d rest hd hne heq
    rcases hsecond d rest heq with hdigit | rfl
    · exact ne_of_isDigit hdigit hd rfl
    · exact hne rfl
  have hrun : ∀ kind : Char → Bool, kind '-' = false → isRun kind (ys ++ '-' :: more) = false := by
    intro kind hkind
    rw [isRun, List.all_append, List.all_cons, hkind]
    simp
  rw [isInt, hsign, isIntBody.eq_def]
  split
  · next heq => exact absurd (congrArg List.length heq) (by simp)
  · next heq => exact absurd (List.cons.inj heq).2 (hletter 'b' _ rfl (by decide))
  · next heq => exact absurd (List.cons.inj heq).2 (hletter 'x' _ rfl (by decide))
  · next heq =>
    rw [← (List.cons.inj heq).2]
    exact hrun _ rfl
  · rw [hparts]
    have hwhole : isWhole (c :: ys ++ '-' :: word) = false := by
      rw [isWhole, isDigits_hyphen, Bool.false_and]
    cases parts with
    | nil => exact hwhole
    | cons part parts =>
      dsimp only
      rw [hwhole, Bool.false_and]

/-- What opens with digits and a hyphen is a time if it has the form of one. -/
theorem Tag.ofForm_timestamp {c : Char} {ys more : List Char}
    (hdigits : ∀ d ∈ c :: ys, d.isDigit = true)
    (h : Timestamp.isImplicit (c :: ys ++ '-' :: more) = true) :
    Tag.ofForm (c :: ys ++ '-' :: more) = .timestamp := by
  have hc := hdigits c List.mem_cons_self
  rw [ofForm, List.cons_append, contains_eq_false (by decide) (.inl hc),
    contains_eq_false (by decide) (.inl hc), ← List.cons_append, isFloat_hyphen hdigits,
    isInt_hyphen hdigits, h]
  rfl

/-- What opens like a date opens with digits and a hyphen. -/
theorem Tag.ofPlain_timestamp {d : Date} (hdate : d.fault? = none) {rest : List Char}
    (hchars : ∀ c ∈ d.iso.toList ++ rest, isTimeChar c = true)
    (h : Timestamp.isImplicit (d.iso.toList ++ rest) = true) :
    Tag.ofPlain (String.ofList (d.iso.toList ++ rest)) = .timestamp := by
  obtain ⟨ys, ms, ds, hyear, -, -, hiso⟩ := Date.exists_iso hdate
  obtain ⟨c, ys, rfl, -⟩ := hyear.exists_cons
  have hline : '\n' ∉ d.iso.toList ++ rest := fun hmem => Bool.false_ne_true (hchars '\n' hmem)
  rw [Tag.ofPlain_eq hline]
  rw [hiso, List.append_assoc, List.cons_append] at h ⊢
  exact Tag.ofForm_timestamp hyear.isDigit h

/-- A written date is a time by its form alone. -/
theorem Tag.ofPlain_date {d : Date} (h : d.fault? = none) : Tag.ofPlain d.iso = .timestamp := by
  have hparse := Timestamp.parse?_iso h []
  have hlength : (d.iso.toList ++ []).length = 10 := by
    obtain ⟨ys, ms, ds, hyear, hmonth, hday, hiso⟩ := Date.exists_iso h
    simp only [hiso, List.length_append, List.length_cons, List.length_nil, hyear.length,
      hmonth.length, hday.length]
  have himplicit : Timestamp.isImplicit (d.iso.toList ++ []) = true := by
    rw [Timestamp.isImplicit, hparse, hlength]
    rfl
  have htag := Tag.ofPlain_timestamp h
    (by rw [List.append_nil]; exact isTimeChar_iso h) himplicit
  rwa [List.append_nil, String.ofList_toList] at htag

/-- A written time with a date is a time by its form alone. -/
theorem Tag.ofPlain_datetime {t : DateTime} (h : t.Proper) :
    Tag.ofPlain (t.isoWith " ") = .timestamp := by
  obtain ⟨fraction, zone, hparse, -, -⟩ := Timestamp.parse?_isoWith h
  have hchars := isTimeChar_isoWith h
  have himplicit : Timestamp.isImplicit (t.isoWith " ").toList = true := by
    rw [Timestamp.isImplicit, hparse]
    rfl
  rw [← String.ofList_toList (s := t.isoWith " ")]
  rw [t.toList_isoWith] at hchars himplicit ⊢
  exact Tag.ofPlain_timestamp h.parts.1 hchars himplicit

end Yaml

end DocSchema
