/-!
# Association lists

Lists of keys with values in the order in which the keys first came. Putting a value under a key
that is there keeps the key and its place and replaces the value; a new key goes to the end.

The equality of keys is a parameter, since the keys of a document are compared by value across
several types.

## Main definitions

* `Assoc.put`, `Assoc.ofList`, `Assoc.find?`

## Main results

* `Assoc.find?_put_self`, `Assoc.find?_put_of_ne`: what is found after a `put`
-/

namespace DocSchema.Assoc

variable {κ α : Type}

/-- Puts a value under a key. -/
def put (same : κ → κ → Bool) (key : κ) (value : α) : List (κ × α) → List (κ × α)
  | [] => [(key, value)]
  | (k, v) :: rest =>
    if same k key then (k, value) :: rest else (k, v) :: put same key value rest

/-- Puts the entries of a list one after the other. -/
def ofList (same : κ → κ → Bool) (entries : List (κ × α)) : List (κ × α) :=
  entries.foldl (fun found entry => put same entry.1 entry.2 found) []

/-- The value under a key. -/
def find? [BEq κ] (key : κ) : List (κ × α) → Option α
  | [] => none
  | (k, v) :: rest => if k == key then some v else find? key rest

section Lawful

variable [BEq κ] [LawfulBEq κ]

@[simp] theorem find?_put_self (key : κ) (value : α) (entries : List (κ × α)) :
    find? key (put (· == ·) key value entries) = some value := by
  induction entries with
  | nil => simp [put, find?]
  | cons entry rest ih =>
    obtain ⟨k, v⟩ := entry
    by_cases h : k = key <;> simp [put, find?, h, ih]

theorem find?_put_of_ne {key other : κ} (h : other ≠ key) (value : α) (entries : List (κ × α)) :
    find? other (put (· == ·) key value entries) = find? other entries := by
  induction entries with
  | nil => simp [put, find?, Ne.symm h]
  | cons entry rest ih =>
    obtain ⟨k, v⟩ := entry
    by_cases hk : k = key
    · subst hk
      simp [put, find?, Ne.symm h]
    · by_cases ho : k = other
      · subst ho
        simp [put, find?, hk]
      · simp [put, find?, hk, ho, ih]

end Lawful

end DocSchema.Assoc
