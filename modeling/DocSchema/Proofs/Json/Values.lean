import DocSchema.Json
import DocSchema.Value
import Mathlib.Tactic.Common

/-!
# JSON values as document values

Every JSON value is a value of a document, one that uses few of the kinds there are. The keys of its
mappings are texts.

## Main definitions

* `Json.toValue`: the document value of a JSON value
* `Json.WellKeyed`: no object has two members of one key

## Main results

* `Json.ofList_toEntries`: text keys are put together in documents as they are in objects
-/

namespace DocSchema.Json

mutual

/-- The document value of a JSON value. -/
def toValue : Json → Value
  | null => .null
  | bool b => .bool b
  | int n => .int n
  | float x => .float x
  | text s => .text s
  | list items => .list (toValues items)
  | object members => .map (toEntries members)

/-- The document values of items. -/
def toValues : List Json → List Value
  | [] => []
  | item :: items => toValue item :: toValues items

/-- The entries of members. -/
def toEntries : List (String × Json) → List (Value × Value)
  | [] => []
  | (key, value) :: members => (.text key, toValue value) :: toEntries members

end

theorem toEntries_eq_map (members : List (String × Json)) :
    toEntries members = members.map fun (key, value) => (.text key, toValue value) := by
  induction members with
  | nil => rfl
  | cons member members ih => rw [toEntries, ih, List.map_cons]

/-- Text keys are put together as keys of a document as they are as keys of an object. -/
theorem ofList_toEntries (members : List (String × Json)) :
    Assoc.ofList Value.sameKey (toEntries members) = toEntries (Assoc.ofList (· == ·) members) := by
  have hput : ∀ (key : String) (value : Json) (found : List (String × Json)),
      Assoc.put Value.sameKey (.text key) value.toValue (toEntries found) =
        toEntries (Assoc.put (· == ·) key value found) := by
    intro key value found
    induction found with
    | nil => rfl
    | cons entry found ih =>
      obtain ⟨k, v⟩ := entry
      have hsame : Value.sameKey (.text k) (.text key) = (k == key) := rfl
      rw [toEntries, Assoc.put, Assoc.put, hsame, ih]
      split_ifs <;> rfl
  suffices hfold : ∀ found : List (String × Json),
      (toEntries members).foldl
          (fun found entry => Assoc.put Value.sameKey entry.1 entry.2 found) (toEntries found) =
        toEntries (members.foldl (fun found entry => Assoc.put (· == ·) entry.1 entry.2 found)
          found) from hfold []
  induction members with
  | nil => exact fun found => rfl
  | cons member members ih =>
    intro found
    rw [toEntries, List.foldl_cons, List.foldl_cons, hput]
    exact ih _

/-- No object at any depth of a value has two members of one key. -/
inductive WellKeyed : Json → Prop
  | null : WellKeyed null
  | bool (b : Bool) : WellKeyed (bool b)
  | int (n : Int) : WellKeyed (int n)
  | float (x : Number.Binary64) : WellKeyed (float x)
  | text (s : String) : WellKeyed (text s)
  | list {items : List Json} : (∀ item ∈ items, WellKeyed item) → WellKeyed (list items)
  | object {members : List (String × Json)} : (members.map Prod.fst).Nodup →
    (∀ member ∈ members, WellKeyed member.2) → WellKeyed (object members)

end DocSchema.Json
