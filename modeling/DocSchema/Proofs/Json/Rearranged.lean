import DocSchema.Proofs.Json.Sorted
import DocSchema.Proofs.Json.Unambiguous
import DocSchema.Proofs.Json.Values
import Mathlib.Data.List.Perm.Basic

/-!
# Sorting as a normal form

Two values differ in nothing but the order of members exactly if they are sorted to the same value.
Sorting makes them equal because no key occurs twice in an object: of members with the same key it
would keep the order. The items of a list are not moved, so lists are compared item by item.

Since the text of a sorted value tells the value, the text is a normal form too.

## Main results

* `rearranged_list_iff`, `rearranged_object_iff`: rearranged lists and objects
* `sorted_eq_iff`: sorting is a normal form
* `compact_sorted_eq_iff`: so is the text of what is sorted
* `compact_sorted_list`: the items of a list in its text
-/

namespace DocSchema.Json

open List (Forall₂)

variable {j k : Json} {items others : List Json} {members rest : List (String × Json)}

/-! ## Items and members -/

theorem forall₂_congr_of_mem {α β : Type} {R S : α → β → Prop} {as : List α} {bs : List β}
    (h : ∀ a ∈ as, ∀ b, R a b ↔ S a b) : Forall₂ R as bs ↔ Forall₂ S as bs := by
  have hmem {T : α → β → Prop} :
      Forall₂ T as bs ↔ Forall₂ (fun a b => a ∈ as ∧ T a b) as bs := by
    rw [List.forall₂_and_left]
    exact (and_iff_right fun _ => id).symm
  rw [hmem, @hmem S]
  exact ⟨fun hR => hR.imp fun a b hab => ⟨hab.1, (h a hab.1 b).mp hab.2⟩,
    fun hS => hS.imp fun a b hab => ⟨hab.1, (h a hab.1 b).mpr hab.2⟩⟩

theorem map_eq_map_iff_forall₂ {α β γ : Type} {f : α → γ} {g : β → γ} {as : List α} {bs : List β} :
    as.map f = bs.map g ↔ Forall₂ (fun a b => f a = g b) as bs := by
  rw [← List.forall₂_eq_eq_eq, List.forall₂_map_left_iff, List.forall₂_map_right_iff]

/-- Lists are rearranged item by item. -/
theorem rearranged_list_iff :
    (list items).Rearranged (list others) ↔ Forall₂ Rearranged items others := by
  constructor
  · intro h
    cases h with
    | same => exact List.forall₂_same.mpr fun item _ => .same item
    | list h => exact h
  · exact .list

/-- The same key with a value that is rearranged. -/
def MemberRearranged (m n : String × Json) : Prop := m.1 = n.1 ∧ m.2.Rearranged n.2

/-- Objects are rearranged member by member, and then as a whole. -/
theorem rearranged_object_iff :
    (object members).Rearranged (object rest) ↔
      ∃ inside, Forall₂ MemberRearranged members inside ∧ inside.Perm rest := by
  constructor
  · intro h
    cases h with
    | same => exact ⟨members, List.forall₂_same.mpr fun m _ => ⟨rfl, .same m.2⟩, .rfl⟩
    | @object _ inside _ hkeys hvalues hperm =>
      refine ⟨inside, ?_, hperm⟩
      rw [List.forall₂_map_left_iff, List.forall₂_map_right_iff] at hvalues
      exact (map_eq_map_iff_forall₂.mp hkeys).mp (fun _ _ => And.intro) hvalues
  · rintro ⟨inside, hmembers, hperm⟩
    refine .object (map_eq_map_iff_forall₂.mpr (hmembers.imp fun _ _ => And.left)) ?_ hperm
    rw [List.forall₂_map_left_iff, List.forall₂_map_right_iff]
    exact hmembers.imp fun _ _ => And.right

/-! ## Sorted members -/

/-- A member with its value sorted. -/
def sortedMember (m : String × Json) : String × Json := (m.1, m.2.sorted)

theorem sortedItems_eq_map (items : List Json) : sortedItems items = items.map sorted := by
  induction items with
  | nil => rfl
  | cons item items ih => rw [sortedItems, ih, List.map_cons]

theorem perm_sortedMembers (members : List (String × Json)) :
    (sortedMembers members).Perm (members.map sortedMember) := by
  induction members with
  | nil => exact .nil
  | cons m members ih => exact (perm_insertMember m.1 m.2.sorted _).trans (ih.cons _)

/-- Where no key occurs twice, what is sorted depends on nothing but what the members are. -/
theorem sortedMembers_eq_iff (hkeys : (members.map Prod.fst).Nodup) :
    sortedMembers members = sortedMembers rest ↔
      (members.map sortedMember).Perm (rest.map sortedMember) := by
  constructor
  · intro h
    exact (perm_sortedMembers members).symm.trans (h ▸ perm_sortedMembers rest)
  · intro h
    have hperm := (perm_sortedMembers members).trans (h.trans (perm_sortedMembers rest).symm)
    have hnodup : ((sortedMembers members).map Prod.fst).Nodup := by
      rw [((perm_sortedMembers members).map Prod.fst).nodup_iff, List.map_map]
      exact hkeys
    -- In order and with different keys, there is one place for each member.
    refine hperm.eq_of_pairwise (fun m n hm hn hmn hnm => ?_)
      (List.pairwise_map.mp (keySorted_sortedMembers members).1)
      (List.pairwise_map.mp (keySorted_sortedMembers rest).1)
    exact List.inj_on_of_nodup_map hnodup hm (hperm.mem_iff.mpr hn) (le_antisymm hmn hnm)

/-- Members that are the same when sorted are paired in some order. -/
theorem perm_map_sortedMember_iff :
    (members.map sortedMember).Perm (rest.map sortedMember) ↔
      ∃ inside, Forall₂ (fun m n => sortedMember m = sortedMember n) members inside ∧
        inside.Perm rest := by
  constructor
  · intro h
    have hrest : Forall₂ (fun m n => m = sortedMember n) (rest.map sortedMember) rest :=
      List.forall₂_map_left_iff.mpr (List.forall₂_same.mpr fun _ _ => rfl)
    obtain ⟨inside, hinside, hperm⟩ := List.perm_comp_forall₂ h hrest
    exact ⟨inside, List.forall₂_map_left_iff.mp hinside, hperm⟩
  · rintro ⟨inside, hinside, hperm⟩
    rw [map_eq_map_iff_forall₂.mpr hinside]
    exact hperm.map sortedMember

/-! ## Normal forms -/

/-- **Sorting is a normal form**: values are sorted to the same value exactly if they differ in the
order of members only. -/
theorem sorted_eq_iff (h : j.WellKeyed) : j.sorted = k.sorted ↔ j.Rearranged k := by
  have hleaf {j k : Json} (hleft : j.sorted = k.sorted → j = k) (hright : j.Rearranged k → j = k) :
      j.sorted = k.sorted ↔ j.Rearranged k :=
    ⟨fun h => hleft h ▸ .same j, fun h => hright h ▸ rfl⟩
  induction h generalizing k with
  | null => exact hleaf (fun h => by cases k <;> first | rfl | cases h) (by rintro ⟨⟩; rfl)
  | bool b => exact hleaf (fun h => by cases k <;> first | exact h | cases h) (by rintro ⟨⟩; rfl)
  | int n => exact hleaf (fun h => by cases k <;> first | exact h | cases h) (by rintro ⟨⟩; rfl)
  | float x => exact hleaf (fun h => by cases k <;> first | exact h | cases h) (by rintro ⟨⟩; rfl)
  | text s => exact hleaf (fun h => by cases k <;> first | exact h | cases h) (by rintro ⟨⟩; rfl)
  | @list items _ ih =>
    cases k with
    | list others =>
      calc (list items).sorted = (list others).sorted
          ↔ items.map sorted = others.map sorted := by
            rw [sorted, sorted, list.injEq, sortedItems_eq_map, sortedItems_eq_map]
        _ ↔ Forall₂ (fun a b => a.sorted = b.sorted) items others := map_eq_map_iff_forall₂
        _ ↔ Forall₂ Rearranged items others := forall₂_congr_of_mem fun item hitem _ => ih item hitem
        _ ↔ (list items).Rearranged (list others) := rearranged_list_iff.symm
    | _ => exact iff_of_false nofun nofun
  | @object members hkeys _ ih =>
    cases k with
    | object rest =>
      have hmember : ∀ m ∈ members, ∀ n, sortedMember m = sortedMember n ↔ MemberRearranged m n :=
        fun m hm n => Prod.ext_iff.trans (and_congr_right fun _ => ih m hm)
      calc (object members).sorted = (object rest).sorted
          ↔ (members.map sortedMember).Perm (rest.map sortedMember) := by
            rw [sorted, sorted, object.injEq, sortedMembers_eq_iff hkeys]
        _ ↔ ∃ inside, Forall₂ (fun m n => sortedMember m = sortedMember n) members inside ∧
              inside.Perm rest := perm_map_sortedMember_iff
        _ ↔ ∃ inside, Forall₂ MemberRearranged members inside ∧ inside.Perm rest :=
            exists_congr fun _ => and_congr_left fun _ => forall₂_congr_of_mem hmember
        _ ↔ (object members).Rearranged (object rest) := rearranged_object_iff.symm
    | _ => exact iff_of_false nofun nofun

/-! ## Texts of sorted values -/

theorem InLowestForm.sorted (h : j.InLowestForm) : j.sorted.InLowestForm := by
  induction h with
  | null => exact .null
  | bool b => exact .bool b
  | int n => exact .int n
  | float hx => exact .float hx
  | text s => exact .text s
  | @list items _ ih =>
    rw [Json.sorted, sortedItems_eq_map]
    exact .list (List.forall_mem_map.mpr ih)
  | @object members _ ih =>
    refine .object fun m hm => ?_
    obtain ⟨n, hn, rfl⟩ := List.mem_map.mp ((perm_sortedMembers members).mem_iff.mp hm)
    exact ih n hn

/-- **Texts.** Values are written the same, once they are sorted, exactly if they differ in the
order of members only. -/
theorem compact_sorted_eq_iff (hkeys : j.WellKeyed) (hj : j.InLowestForm) (hk : k.InLowestForm) :
    j.sorted.compact = k.sorted.compact ↔ j.Rearranged k :=
  Iff.trans ⟨hj.sorted.eq_of_compact_eq hk.sorted, congrArg compact⟩ (sorted_eq_iff hkeys)

/-- The text of a list that is sorted has the texts of its items, in the order of the items. -/
theorem compact_sorted_list (items : List Json) :
    (list items).sorted.compact =
      "[" ++ ", ".intercalate (items.map fun item => item.sorted.compact) ++ "]" := by
  have hparts (js : List Json) :
      String.ofList (joinParts compactChars js) = ", ".intercalate (js.map compact) := by
    induction js with
    | nil => rfl
    | cons j js ih =>
      cases js with
      | nil => simp [joinParts, compact]
      | cons k js =>
        rw [List.map_cons, List.map_cons, String.intercalate_cons_cons, ← List.map_cons, ← ih,
          joinParts, compact, ← String.toList_inj]
        · simp
        · exact List.cons_ne_nil _ _
  have hitems : sortedItems items = items.map Json.sorted := sortedItems_eq_map items
  have hmap : items.map (fun item => item.sorted.compact) = (items.map Json.sorted).map compact := by
    rw [List.map_map]
    rfl
  rw [hmap, ← hparts, Json.sorted, hitems, compact, compactChars, compactItems_eq_joinParts,
    ← String.toList_inj]
  simp

end DocSchema.Json
