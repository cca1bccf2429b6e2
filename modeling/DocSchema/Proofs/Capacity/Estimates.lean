import DocSchema.Capacity
import Mathlib.Data.ENat.Basic
import Mathlib.Order.Bounds.Basic

/-!
# What capacity estimates say

The number of records of an entity that the free allowance holds is the greatest one for which they
fit. The estimates of two entities can be compared: where the fields of one are found among those of
the other in their order, its records take no more space, the allowance holds no fewer of them, and
they are in no higher class of sizes.

All numbers of records without fields fit. That their number has no bound is then no exception: it
counts as larger than every number, and both statements follow from one law, that a number of
records is at most the estimated one exactly if so many records fit.

## Main definitions

* `CapacityEstimate.room`: the estimated number of records, as a number that may be infinite
* `SizeClass.rank`: the place of a class in the order of sizes
* `CapacityEstimate.AtMost`: an estimate is for records that are no larger

## Main results

* `Entity.le_room_iff`: how many records fit
* `capacity_exact_and_monotone`
-/

namespace DocSchema

/-! ## Estimates in order -/

/-- The place of a class in the order of sizes. -/
def SizeClass.rank : SizeClass → ℕ
  | typical => 0
  | large => 1
  | mayBeLarger => 2

/-- The number of records that the allowance holds. -/
def CapacityEstimate.room (c : CapacityEstimate) : ℕ∞ :=
  match c.freeTierDocs with
  | none => ⊤
  | some docs => docs

/-- An estimate is for records no larger than those of another one. -/
structure CapacityEstimate.AtMost (a b : CapacityEstimate) : Prop where
  docBytes_le : a.docBytes ≤ b.docBytes
  room_le : b.room ≤ a.room
  rank_le : a.sizeClass.rank ≤ b.sizeClass.rank

namespace Entity

variable {e f : Entity}

/-! ## Room -/

theorem docBytes_eq (e : Entity) : e.capacity.docBytes = e.fields.length * 50 := rfl

theorem docBytes_pos_iff : 0 < e.capacity.docBytes ↔ e.fields ≠ [] := by
  rw [docBytes_eq, Nat.mul_pos_iff_of_pos_right (by decide), List.length_pos_iff]

theorem freeTierDocs_of_nil (h : e.fields = []) : e.capacity.freeTierDocs = none :=
  if_neg fun hpos => docBytes_pos_iff.mp hpos h

theorem freeTierDocs_of_ne_nil (h : e.fields ≠ []) :
    e.capacity.freeTierDocs = some (freeTierBytes / e.capacity.docBytes) :=
  if_pos (docBytes_pos_iff.mpr h)

theorem freeTierDocs_eq_none_iff : e.capacity.freeTierDocs = none ↔ e.fields = [] := by
  refine ⟨fun hnone => ?_, freeTierDocs_of_nil⟩
  by_contra hfields
  exact absurd ((freeTierDocs_of_ne_nil hfields).symm.trans hnone) (Option.some_ne_none _)

/-- **How many records fit.** A number of records is at most the estimated one exactly if the
allowance holds so many. -/
theorem le_room_iff (e : Entity) (n : ℕ) :
    n ≤ e.capacity.room ↔ n * e.capacity.docBytes ≤ freeTierBytes := by
  by_cases hfields : e.fields = []
  · have hzero : e.capacity.docBytes = 0 := by rw [docBytes_eq, hfields]; rfl
    simp [CapacityEstimate.room, freeTierDocs_of_nil hfields, hzero]
  · rw [CapacityEstimate.room, freeTierDocs_of_ne_nil hfields, Nat.cast_le,
      Nat.le_div_iff_mul_le (docBytes_pos_iff.mpr hfields)]

theorem room_le_of_docBytes_le (h : e.capacity.docBytes ≤ f.capacity.docBytes) :
    f.capacity.room ≤ e.capacity.room := by
  rw [← ENat.forall_natCast_le_iff_le]
  intro n hn
  rw [le_room_iff] at hn ⊢
  exact (Nat.mul_le_mul_left n h).trans hn

/-- The estimated number of records is the greatest one for which they fit. -/
theorem isGreatest_of_freeTierDocs {docs : ℕ} (h : e.capacity.freeTierDocs = some docs) :
    IsGreatest {n | n * e.capacity.docBytes ≤ freeTierBytes} docs := by
  have hroom : e.capacity.room = docs := by rw [CapacityEstimate.room, h]
  constructor
  · exact (e.le_room_iff docs).mp hroom.ge
  · intro n hn
    have hle := (e.le_room_iff n).mpr hn
    rwa [hroom, Nat.cast_le] at hle

/-! ## Classes -/

/-- An entity has a field whose content may be of any size. -/
def HoldsNested (e : Entity) : Prop := ∃ field ∈ e.fields, field.type ∈ nestedTypes

instance (e : Entity) : Decidable e.HoldsNested :=
  inferInstanceAs (Decidable (∃ field ∈ e.fields, field.type ∈ nestedTypes))

theorem sizeClass_eq (e : Entity) :
    e.sizeClass = if e.HoldsNested then .mayBeLarger
      else if largeFieldCount < e.fields.length then .large else .typical := by
  have hnested : (e.fields.any fun field => nestedTypes.contains field.type) = true ↔
      e.HoldsNested := by
    simp [HoldsNested]
  simp only [sizeClass, hnested]

theorem two_le_rank_iff : 2 ≤ e.sizeClass.rank ↔ e.HoldsNested := by
  rw [sizeClass_eq]
  split_ifs with hnested <;> simp [SizeClass.rank, hnested]

theorem one_le_rank_iff :
    1 ≤ e.sizeClass.rank ↔ e.HoldsNested ∨ largeFieldCount < e.fields.length := by
  rw [sizeClass_eq]
  split_ifs with hnested hlarge
  · simp [SizeClass.rank, hnested]
  · simp [SizeClass.rank, hlarge]
  · simp [SizeClass.rank, hnested, hlarge]

theorem HoldsNested.mono (he : e.HoldsNested) (h : e.fields.Sublist f.fields) : f.HoldsNested := by
  obtain ⟨field, hfield, htype⟩ := he
  exact ⟨field, h.subset hfield, htype⟩

/-- A class has at most two classes below it, so that two classes are compared by what puts an
entity above the lowest one and into the highest one. -/
theorem rank_le_of_sublist (h : e.fields.Sublist f.fields) :
    e.sizeClass.rank ≤ f.sizeClass.rank := by
  have hone : 1 ≤ e.sizeClass.rank → 1 ≤ f.sizeClass.rank := by
    rw [one_le_rank_iff, one_le_rank_iff]
    exact Or.imp (fun he => he.mono h) fun hlarge => lt_of_lt_of_le hlarge h.length_le
  have htwo : 2 ≤ e.sizeClass.rank → 2 ≤ f.sizeClass.rank := by
    rw [two_le_rank_iff, two_le_rank_iff]
    exact fun he => he.mono h
  have hmax : e.sizeClass.rank ≤ 2 := by cases e.sizeClass <;> decide
  omega

end Entity

/-! ## Estimates -/

/-- **Capacity estimates.** There is no number of records exactly if the entity has no fields, and
the number that there is otherwise is the greatest one for which the records fit. The estimate for
an entity is at most the one for an entity among whose fields all of its own are found in order. -/
theorem capacity_exact_and_monotone :
    (∀ e : Entity, (e.capacity.freeTierDocs = none ↔ e.fields = []) ∧
      (e.fields ≠ [] → ∃ docs, e.capacity.freeTierDocs = some docs ∧
        IsGreatest {n | n * e.capacity.docBytes ≤ 2 ^ 30} docs)) ∧
      ∀ e f : Entity, e.fields.Sublist f.fields → e.capacity.AtMost f.capacity := by
  refine ⟨fun e => ⟨Entity.freeTierDocs_eq_none_iff, fun hfields => ?_⟩, fun e f h => ?_⟩
  · have hdocs := Entity.freeTierDocs_of_ne_nil hfields
    exact ⟨_, hdocs, Entity.isGreatest_of_freeTierDocs hdocs⟩
  · have hbytes : e.capacity.docBytes ≤ f.capacity.docBytes := Nat.mul_le_mul_right 50 h.length_le
    exact ⟨hbytes, Entity.room_le_of_docBytes_le hbytes, Entity.rank_le_of_sublist h⟩

/-- Notes with a title. -/
def titledNotes : Entity where
  name := "Note"
  fields := [{ name := "title" }]

/-- Notes with a title between two other fields, one of which holds a list. -/
def taggedNotes : Entity where
  name := "Note"
  fields := [{ name := "tags", type := "array" }, { name := "title" }, { name := "body" }]

/-- Titled notes are no larger than tagged ones. -/
theorem titledNotes_atMost :
    titledNotes.fields ≠ [] ∧ titledNotes.fields.Sublist taggedNotes.fields ∧
      titledNotes.capacity = ⟨50, some 21474836, .typical⟩ ∧
      taggedNotes.capacity = ⟨150, some 7158278, .mayBeLarger⟩ ∧
      IsGreatest {n | n * 50 ≤ 2 ^ 30} 21474836 ∧
      titledNotes.capacity.AtMost taggedNotes.capacity := by
  have hne : titledNotes.fields ≠ [] := List.cons_ne_nil _ _
  have hsub : titledNotes.fields.Sublist taggedNotes.fields :=
    .cons _ (.cons_cons _ (.cons _ .slnil))
  obtain ⟨docs, hdocs, hgreatest⟩ := (capacity_exact_and_monotone.1 titledNotes).2 hne
  obtain rfl : docs = 21474836 := (Option.some.inj hdocs).symm
  exact ⟨hne, hsub, by decide, by decide, hgreatest,
    capacity_exact_and_monotone.2 titledNotes taggedNotes hsub⟩

end DocSchema
