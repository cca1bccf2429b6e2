import DocSchema.Json
import Mathlib.Data.List.Forall2
import Mathlib.Data.String.Basic

/-!
# Objects in the order of their keys

Sorting a JSON value puts the members of all its objects in the order of their keys. Nothing else
happens to it: the members are the same ones, and the items of a list keep their order.

## Main definitions

* `KeySorted`: a value whose objects are all in order
* `Rearranged`: two values that differ in the order of members only

## Main results

* `keySorted_sorted`, `rearranged_sorted`
-/

namespace DocSchema.Json

/-- The members of all objects are in the order of their keys. -/
inductive KeySorted : Json → Prop
  | null : KeySorted .null
  | bool (b : Bool) : KeySorted (.bool b)
  | int (n : Int) : KeySorted (.int n)
  | float (x : Number.Binary64) : KeySorted (.float x)
  | text (s : String) : KeySorted (.text s)
  | list {items : List Json} (h : ∀ j ∈ items, j.KeySorted) : KeySorted (.list items)
  | object {members : List (String × Json)} (horder : (members.map Prod.fst).Pairwise (· ≤ ·))
      (h : ∀ m ∈ members, m.2.KeySorted) : KeySorted (.object members)

/-- Two values differ in the order of members only, at any depth. -/
inductive Rearranged : Json → Json → Prop
  | same (j : Json) : Rearranged j j
  | list {items others : List Json} (h : List.Forall₂ Rearranged items others) :
      Rearranged (.list items) (.list others)
  /-- The values are rearranged inside first, then the members as a whole. -/
  | object {members inside others : List (String × Json)}
      (hkeys : members.map Prod.fst = inside.map Prod.fst)
      (h : List.Forall₂ Rearranged (members.map Prod.snd) (inside.map Prod.snd))
      (hperm : inside.Perm others) : Rearranged (.object members) (.object others)

variable {key : String} {value : Json} {members : List (String × Json)}

/-! ## Inserting a member -/

theorem perm_insertMember (key : String) (value : Json) (members : List (String × Json)) :
    (insertMember key value members).Perm ((key, value) :: members) := by
  induction members with
  | nil => rfl
  | cons m rest ih =>
    obtain ⟨k, v⟩ := m
    rw [insertMember]
    split_ifs
    · rfl
    · exact (ih.cons (k, v)).trans (List.Perm.swap (key, value) (k, v) rest)

theorem pairwise_insertMember (h : (members.map Prod.fst).Pairwise (· ≤ ·)) :
    ((insertMember key value members).map Prod.fst).Pairwise (· ≤ ·) := by
  induction members with
  | nil => exact List.pairwise_singleton _ key
  | cons m rest ih =>
    obtain ⟨k, v⟩ := m
    obtain ⟨hfirst, hrest⟩ := List.pairwise_cons.mp h
    rw [insertMember]
    split_ifs with hlt
    · refine List.pairwise_cons.mpr ⟨fun other hother => ?_, h⟩
      rcases List.mem_cons.mp hother with rfl | hother
      · exact le_of_lt hlt
      · exact le_trans (le_of_lt hlt) (hfirst other hother)
    · refine List.pairwise_cons.mpr ⟨fun other hother => ?_, ih hrest⟩
      rw [((perm_insertMember key value rest).map Prod.fst).mem_iff, List.map_cons,
        List.mem_cons] at hother
      rcases hother with rfl | hother
      · exact le_of_not_gt hlt
      · exact hfirst other hother

/-! ## Sorted values -/

mutual

/-- Sorting puts all members in order. -/
theorem keySorted_sorted : ∀ j : Json, j.sorted.KeySorted
  | .null => .null
  | .bool b => .bool b
  | .int n => .int n
  | .float x => .float x
  | .text s => .text s
  | .list items => .list (keySorted_sortedItems items)
  | .object members =>
    .object (keySorted_sortedMembers members).1 (keySorted_sortedMembers members).2

theorem keySorted_sortedItems : ∀ items : List Json, ∀ j ∈ sortedItems items, j.KeySorted
  | [] => nofun
  | item :: items =>
    List.forall_mem_cons.mpr ⟨keySorted_sorted item, keySorted_sortedItems items⟩

theorem keySorted_sortedMembers : ∀ members : List (String × Json),
    ((sortedMembers members).map Prod.fst).Pairwise (· ≤ ·) ∧
      ∀ m ∈ sortedMembers members, m.2.KeySorted
  | [] => ⟨.nil, nofun⟩
  | (key, value) :: members => by
    obtain ⟨horder, hall⟩ := keySorted_sortedMembers members
    refine ⟨pairwise_insertMember horder, fun m hm => ?_⟩
    rcases List.mem_cons.mp ((perm_insertMember key _ _).mem_iff.mp hm) with rfl | hm
    · exact keySorted_sorted value
    · exact hall m hm

end

mutual

/-- Sorting changes nothing but the order of members. -/
theorem rearranged_sorted : ∀ j : Json, j.Rearranged j.sorted
  | .null => .same _
  | .bool _ => .same _
  | .int _ => .same _
  | .float _ => .same _
  | .text _ => .same _
  | .list items => .list (rearranged_sortedItems items)
  | .object members => by
    obtain ⟨inside, hkeys, hinside, hperm⟩ := rearranged_sortedMembers members
    exact .object hkeys hinside hperm

theorem rearranged_sortedItems : ∀ items : List Json,
    List.Forall₂ Rearranged items (sortedItems items)
  | [] => .nil
  | item :: items => .cons (rearranged_sorted item) (rearranged_sortedItems items)

theorem rearranged_sortedMembers : ∀ members : List (String × Json),
    ∃ inside : List (String × Json), members.map Prod.fst = inside.map Prod.fst ∧
      List.Forall₂ Rearranged (members.map Prod.snd) (inside.map Prod.snd) ∧
      inside.Perm (sortedMembers members)
  | [] => ⟨[], rfl, .nil, .nil⟩
  | (key, value) :: members => by
    obtain ⟨inside, hkeys, hinside, hperm⟩ := rearranged_sortedMembers members
    refine ⟨(key, value.sorted) :: inside, congrArg (key :: ·) hkeys,
      .cons (rearranged_sorted value) hinside, ?_⟩
    exact (hperm.cons (key, value.sorted)).trans (perm_insertMember key _ _).symm

end

end DocSchema.Json
