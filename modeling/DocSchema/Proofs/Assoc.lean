import DocSchema.Assoc
import Mathlib.Data.List.Nodup

/-!
# Keys of association lists

Putting entries one after the other leaves every key in one place. A list whose keys differ
already is put together to itself, so nothing is lost or moved when it is read back. This needs
nothing of the equality of keys: whether a key is there is asked of the keys in front of its place
only.

## Main definitions

* `Distinct`: no key is the same as one in front of it

## Main results

* `distinct_ofList`: the keys of a list that was put together differ
* `ofList_of_distinct`: entries with different keys are put together to themselves
* `forall_mem_ofList`: what holds of all keys and values holds of those that are left
* `find?_eq_some_of_mem`: entries with different keys are found under their keys
* `map_fst_ofList`, `find?_ofList_append`: put together, every key has the place where it first came
  and the value that last came with it
-/

namespace DocSchema.Assoc

variable {κ α : Type}

section Same

variable {same : κ → κ → Bool} {P : κ → Prop} {Q : α → Prop} {entries : List (κ × α)}

/-- No key is the same as one in front of it. -/
def Distinct (same : κ → κ → Bool) (entries : List (κ × α)) : Prop :=
  entries.Pairwise fun a b => same a.1 b.1 = false

/-! ## One entry -/

theorem forall_mem_put (h : ∀ e ∈ entries, P e.1 ∧ Q e.2) {key : κ} {value : α} (hkey : P key)
    (hvalue : Q value) : ∀ e ∈ put same key value entries, P e.1 ∧ Q e.2 := by
  induction entries with
  | nil => simpa [put] using And.intro hkey hvalue
  | cons entry rest ih =>
    obtain ⟨k, v⟩ := entry
    rw [List.forall_mem_cons] at h
    simp only [put]
    split_ifs
    · exact List.forall_mem_cons.mpr ⟨⟨h.1.1, hvalue⟩, h.2⟩
    · exact List.forall_mem_cons.mpr ⟨h.1, ih h.2⟩

theorem distinct_put (h : Distinct same entries) (key : κ) (value : α) :
    Distinct same (put same key value entries) := by
  induction entries with
  | nil => exact List.pairwise_singleton _ _
  | cons entry rest ih =>
    obtain ⟨k, v⟩ := entry
    obtain ⟨hfirst, hrest⟩ := List.pairwise_cons.mp h
    simp only [put]
    split_ifs with hk
    · exact List.pairwise_cons.mpr ⟨hfirst, hrest⟩
    · refine List.pairwise_cons.mpr ⟨fun e he => ?_, ih hrest⟩
      exact (forall_mem_put (P := fun other => same k other = false) (Q := fun _ => True)
        (fun e he => ⟨hfirst e he, trivial⟩) (eq_false_of_ne_true hk) trivial e he).1

/-- A new key goes to the end. -/
theorem put_of_forall_ne {key : κ} (h : ∀ e ∈ entries, same e.1 key = false) (value : α) :
    put same key value entries = entries ++ [(key, value)] := by
  induction entries with
  | nil => rfl
  | cons entry rest ih =>
    obtain ⟨k, v⟩ := entry
    rw [List.forall_mem_cons] at h
    rw [put, if_neg (Bool.eq_false_iff.mp h.1), ih h.2, List.cons_append]

/-! ## Several entries

The statements are about a list onto which entries are put, so that the induction on the entries
goes through. -/

theorem distinct_ofList (entries : List (κ × α)) : Distinct same (ofList same entries) := by
  suffices h : ∀ found : List (κ × α), Distinct same found →
      Distinct same (entries.foldl (fun found e => put same e.1 e.2 found) found) from
    h [] List.Pairwise.nil
  induction entries with
  | nil => exact fun found hfound => hfound
  | cons e entries ih => exact fun found hfound => ih _ (distinct_put hfound e.1 e.2)

theorem forall_mem_ofList (h : ∀ e ∈ entries, P e.1 ∧ Q e.2) :
    ∀ e ∈ ofList same entries, P e.1 ∧ Q e.2 := by
  suffices hfold : ∀ found : List (κ × α), (∀ e ∈ found, P e.1 ∧ Q e.2) →
      ∀ e ∈ entries.foldl (fun found e => put same e.1 e.2 found) found, P e.1 ∧ Q e.2 from
    hfold [] (by simp)
  induction entries with
  | nil => exact fun found hfound => hfound
  | cons e entries ih =>
    rw [List.forall_mem_cons] at h
    exact fun found hfound => ih h.2 _ (forall_mem_put hfound h.1.1 h.1.2)

theorem ofList_of_distinct (h : Distinct same entries) : ofList same entries = entries := by
  suffices hfold : ∀ found : List (κ × α), Distinct same (found ++ entries) →
      entries.foldl (fun found e => put same e.1 e.2 found) found = found ++ entries from
    hfold [] h
  clear h
  induction entries with
  | nil => exact fun found _ => (List.append_nil found).symm
  | cons e entries ih =>
    intro found hfound
    have hnew : ∀ other ∈ found, same other.1 e.1 = false :=
      fun other hother => (List.pairwise_append.mp hfound).2.2 other hother e List.mem_cons_self
    rw [List.append_cons] at hfound ⊢
    rw [List.foldl_cons, put_of_forall_ne hnew]
    exact ih _ hfound

end Same

variable [BEq κ] [LawfulBEq κ]

theorem distinct_iff_nodup {entries : List (κ × α)} :
    Distinct (· == ·) entries ↔ (entries.map Prod.fst).Nodup := by
  rw [Distinct, List.Nodup, List.pairwise_map]
  simp only [beq_eq_false_iff_ne]

theorem nodup_keys_ofList (entries : List (κ × α)) :
    ((ofList (· == ·) entries).map Prod.fst).Nodup :=
  distinct_iff_nodup.mp (distinct_ofList entries)

theorem ofList_eq_self {entries : List (κ × α)} (h : (entries.map Prod.fst).Nodup) :
    ofList (· == ·) entries = entries :=
  ofList_of_distinct (distinct_iff_nodup.mpr h)

theorem put_of_notMem {entries : List (κ × α)} {key : κ} (h : key ∉ entries.map Prod.fst)
    (value : α) : put (· == ·) key value entries = entries ++ [(key, value)] := by
  refine put_of_forall_ne (fun e he => beq_eq_false_iff_ne.mpr ?_) value
  rintro rfl
  exact h (List.mem_map_of_mem he)

/-- Of two values under a key the later one is left. -/
theorem put_put (key : κ) (value other : α) (entries : List (κ × α)) :
    put (· == ·) key other (put (· == ·) key value entries) = put (· == ·) key other entries := by
  induction entries with
  | nil => simp [put]
  | cons entry rest ih =>
    obtain ⟨k, v⟩ := entry
    by_cases hk : k = key
    · simp [put, hk]
    · simp [put, hk, ih]

/-! ## Finding values -/

theorem find?_eq_none_iff {entries : List (κ × α)} {key : κ} :
    find? key entries = none ↔ key ∉ entries.map Prod.fst := by
  induction entries with
  | nil => simp [find?]
  | cons entry rest ih =>
    obtain ⟨k, v⟩ := entry
    by_cases hk : k = key
    · simp [find?, hk]
    · simp [find?, hk, ih, Ne.symm hk]

theorem mem_of_find?_eq_some {entries : List (κ × α)} {key : κ} {value : α}
    (h : find? key entries = some value) : (key, value) ∈ entries := by
  induction entries with
  | nil => cases h
  | cons entry rest ih =>
    obtain ⟨k, v⟩ := entry
    rw [find?] at h
    split_ifs at h with hk
    · cases h
      rw [eq_of_beq hk]
      exact List.mem_cons_self
    · exact List.mem_cons_of_mem _ (ih h)

/-- Where the keys differ, every entry is found under its key. -/
theorem find?_eq_some_of_mem {entries : List (κ × α)} (h : (entries.map Prod.fst).Nodup) {key : κ}
    {value : α} (hmem : (key, value) ∈ entries) : find? key entries = some value := by
  induction entries with
  | nil => cases hmem
  | cons entry rest ih =>
    obtain ⟨k, v⟩ := entry
    rw [List.map_cons, List.nodup_cons] at h
    rw [find?]
    obtain hfirst | hrest := List.mem_cons.mp hmem
    · cases hfirst
      rw [if_pos (beq_self_eq_true key)]
    · have hne : ¬ (k == key) = true := by
        rw [beq_iff_eq]
        rintro rfl
        exact h.1 (List.mem_map.mpr ⟨_, hrest, rfl⟩)
      rw [if_neg hne]
      exact ih h.2 hrest

/-! ## Keys and last values of what is put together -/

theorem map_fst_put_of_mem {entries : List (κ × α)} {key : κ} (h : key ∈ entries.map Prod.fst)
    (value : α) : (put (· == ·) key value entries).map Prod.fst = entries.map Prod.fst := by
  induction entries with
  | nil => cases h
  | cons entry rest ih =>
    obtain ⟨k, v⟩ := entry
    by_cases hk : k = key
    · simp [put, hk]
    · have hrest : key ∈ rest.map Prod.fst := (List.mem_cons.mp h).resolve_left (Ne.symm hk)
      simp [put, hk, ih hrest]

/-- Every key stands where it first came. -/
theorem map_fst_ofList (entries : List (κ × α)) :
    (ofList (· == ·) entries).map Prod.fst = (entries.map Prod.fst).eraseDups := by
  suffices h : ∀ found : List (κ × α),
      (entries.foldl (fun found e => put (· == ·) e.1 e.2 found) found).map Prod.fst =
        found.map Prod.fst ++
          ((entries.map Prod.fst).filter fun k => !(found.map Prod.fst).contains k).eraseDups by
    simpa [ofList] using h []
  induction entries with
  | nil => exact fun found => (List.append_nil _).symm
  | cons e entries ih =>
    intro found
    rw [List.foldl_cons, ih, List.map_cons, List.filter_cons]
    by_cases hkey : e.1 ∈ found.map Prod.fst
    · rw [map_fst_put_of_mem hkey, if_neg (by simpa using hkey)]
    · have hnew : ∀ k, (!((found ++ [e]).map Prod.fst).contains k) =
          (!k == e.1 && !(found.map Prod.fst).contains k) := by
        intro k
        rw [Bool.eq_iff_iff]
        simp [and_comm]
      rw [put_of_notMem hkey, if_pos (by simpa using hkey), List.eraseDups_cons, List.filter_filter]
      simp only [hnew]
      rw [List.map_append, List.append_assoc]
      rfl

theorem find?_foldl_put_of_notMem {key : κ} {entries : List (κ × α)}
    (h : key ∉ entries.map Prod.fst) (found : List (κ × α)) :
    find? key (entries.foldl (fun found e => put (· == ·) e.1 e.2 found) found) =
      find? key found := by
  induction entries generalizing found with
  | nil => rfl
  | cons e entries ih =>
    rw [List.map_cons, List.mem_cons, not_or] at h
    rw [List.foldl_cons, ih h.2, find?_put_of_ne h.1]

/-- Under every key stands the last value that came with it. -/
theorem find?_ofList_append {key : κ} {after : List (κ × α)} (h : key ∉ after.map Prod.fst)
    (before : List (κ × α)) (value : α) :
    find? key (ofList (· == ·) (before ++ (key, value) :: after)) = some value := by
  rw [ofList, List.foldl_append, List.foldl_cons, find?_foldl_put_of_notMem h, find?_put_self]

theorem nodup_eraseDups (keys : List κ) : keys.eraseDups.Nodup := by
  have h := nodup_keys_ofList (keys.map fun key => (key, ()))
  rwa [map_fst_ofList, List.map_map, show Prod.fst ∘ (fun key : κ => (key, ())) = id from rfl,
    List.map_id] at h

end DocSchema.Assoc
