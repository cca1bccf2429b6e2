import DocSchema.Index
import Mathlib.Algebra.GroupWithZero.Nat
import Mathlib.Data.List.Basic
import Mathlib.Data.List.Infix

/-!
# Where an index stands in the manifest

The indexes of a schema are one list, into which every entity puts a run of its own length. This
module says which index stands at which position of the list, and how long it is. Nothing else can
be in the list then.

## The law

An entity with `m` owners, `n` times and `k` index specifications has a run of `m * n + k` indexes.
The pair of the `i`-th owner and the `j`-th time is at position `i * n + j` of the run, so the
owners make the outer loop, and the `i`-th specification is at position `m * n + i`. A run starts
where those of all earlier entities end. A field may be an owner and a time at once, and may occur
several times; it then has several positions.

Owners are told here by the tag and the letters of the name, and times by their type, without the
predicates that the indexes are made with.

## Main definitions

* `Field.OwnsIndexes`, `Entity.owners`, `Entity.times`
* `Entity.indexCount`: the length of a run

## Main results

* `getElem?_flatMap_of_length`: positions in a list of runs of one length
* `indexes_in_order`
-/

namespace DocSchema

/-! ## Owners and times -/

/-- A field is an owner for indexes: it is tagged so or, without a tag, a word in its name says so. -/
def Field.OwnsIndexes (f : Field) : Prop :=
  f.ownership = some .owner ∨
    f.ownership = none ∧ ("userId".toList <:+: f.name.toList ∨ "agentId".toList <:+: f.name.toList)

instance (f : Field) : Decidable f.OwnsIndexes :=
  inferInstanceAs (Decidable (_ ∨ _ ∧ (_ ∨ _)))

/-- The owners of an entity in their order. -/
def Entity.owners (e : Entity) : List Field := e.fields.filter fun f => f.OwnsIndexes

/-- The times of an entity in their order. -/
def Entity.times (e : Entity) : List Field := e.fields.filter fun f => f.type = "timestamp"

/-- The number of indexes of an entity. -/
def Entity.indexCount (e : Entity) : Nat := e.owners.length * e.times.length + e.indexSpecs.length

theorem Text.occursIn_iff {word text : String} :
    occursIn word text = true ↔ word.toList <:+: text.toList := by
  rw [occursIn, occursInChars_iff]
  constructor
  · rintro ⟨before, after, h⟩
    exact ⟨before, after, h.symm⟩
  · rintro ⟨before, after, h⟩
    exact ⟨before, after, h.symm⟩

theorem Ownership.grantsIndex_iff {o : Ownership} : o.grantsIndex = true ↔ o = .owner := by
  cases o <;> simp [grantsIndex]

theorem Ownership.ofName_eq_owner_iff {name : String} :
    ofName name = .owner ↔ "userId".toList <:+: name.toList ∨ "agentId".toList <:+: name.toList := by
  have hmarker : hasMarker indexOwnerMarkers name = true ↔
      "userId".toList <:+: name.toList ∨ "agentId".toList <:+: name.toList := by
    simp [hasMarker, indexOwnerMarkers, Text.occursIn_iff]
  rw [← hmarker, ofName]
  split_ifs with h <;> simp [h]

theorem Field.grantsIndex_iff {f : Field} : f.grantsIndex = true ↔ f.OwnsIndexes := by
  rw [grantsIndex, Ownership.grantsIndex_iff, resolvedOwnership, OwnsIndexes]
  cases f.ownership with
  | none => simp [Ownership.ofName_eq_owner_iff]
  | some o => simp

theorem Entity.indexOwners_eq (e : Entity) : e.indexOwners = e.owners :=
  List.filter_congr fun f _ => Bool.eq_iff_iff.mpr (by rw [Field.grantsIndex_iff, decide_eq_true_iff])

theorem Entity.timestamps_eq (e : Entity) : e.timestamps = e.times :=
  List.filter_congr fun f _ => beq_eq_decide f.type "timestamp"

/-- A field that is called after the owner and has no tag is an owner for access rules only. -/
theorem Field.not_ownsIndexes_of_ownerId {f : Field} (hname : f.name = "ownerId")
    (htag : f.ownership = none) : ¬ f.OwnsIndexes := by
  rw [OwnsIndexes, hname, htag]
  decide

/-! ## Positions -/

/-- In a list of runs of one length, a position is the number of a run and a position in it. -/
theorem getElem?_flatMap_of_length {α β : Type} {as : List α} {f : α → List β} {n : Nat}
    (hlength : ∀ a, (f a).length = n) (i : Nat) {j : Nat} (hj : j < n) :
    (as.flatMap f)[i * n + j]? = as[i]?.bind fun a => (f a)[j]? := by
  induction as generalizing i with
  | nil => simp
  | cons a as ih =>
    rw [List.flatMap_cons]
    cases i with
    | zero =>
      rw [Nat.zero_mul, Nat.zero_add, List.getElem?_append_left (by rwa [hlength])]
      rfl
    | succ i =>
      have hskip : (i + 1) * n + j = (f a).length + (i * n + j) := by
        rw [hlength, Nat.succ_mul]
        omega
      rw [hskip, List.getElem?_append_right (Nat.le_add_right _ _), Nat.add_sub_cancel_left, ih,
        List.getElem?_cons_succ]

namespace Entity

variable {e : Entity}

/-- The pair of an owner and a time. -/
theorem getElem?_ownerTimeIndexes {i j : Nat} (hi : i < e.owners.length) (hj : j < e.times.length) :
    e.ownerTimeIndexes[i * e.times.length + j]? =
      some ⟨e.collection, [⟨e.owners[i].name, .ascending⟩, ⟨e.times[j].name, .descending⟩]⟩ := by
  rw [ownerTimeIndexes, indexOwners_eq, timestamps_eq,
    getElem?_flatMap_of_length (fun _ => List.length_map _) i hj, List.getElem?_eq_getElem hi,
    Option.bind_some, List.getElem?_map, List.getElem?_eq_getElem hj]
  rfl

theorem length_ownerTimeIndexes : e.ownerTimeIndexes.length = e.owners.length * e.times.length := by
  rw [ownerTimeIndexes, indexOwners_eq, timestamps_eq, List.length_flatMap]
  simp

theorem length_indexes (e : Entity) : e.indexes.length = e.indexCount := by
  rw [indexes, List.length_append, length_ownerTimeIndexes, listedIndexes, List.length_map,
    indexCount]

/-- A field that is neither an owner nor a time has no part in the indexes. -/
theorem indexes_of_dropped {before after : List Field} {f : Field}
    (hfields : e.fields = before ++ f :: after) (howner : ¬ f.OwnsIndexes)
    (htime : f.type ≠ "timestamp") : { e with fields := before ++ after }.indexes = e.indexes := by
  have howners : ({ e with fields := before ++ after } : Entity).owners = e.owners := by
    simp [owners, hfields, howner]
  have htimes : ({ e with fields := before ++ after } : Entity).times = e.times := by
    simp [times, hfields, htime]
  rw [indexes, indexes, ownerTimeIndexes, ownerTimeIndexes, indexOwners_eq, indexOwners_eq,
    timestamps_eq, timestamps_eq, howners, htimes]
  rfl

end Entity

/-! ## The whole list -/

theorem Schema.length_indexes (s : Schema) :
    s.indexes.length = (s.entities.map Entity.indexCount).sum := by
  rw [indexes, List.length_flatMap]
  simp only [Entity.length_indexes]

/-- The run of an entity starts where those of all earlier ones end. -/
theorem Schema.getElem?_indexes {s : Schema} {before after : List Entity} {e : Entity}
    (h : s.entities = before ++ e :: after) {i : Nat} (hi : i < e.indexCount) :
    s.indexes[(before.map Entity.indexCount).sum + i]? = e.indexes[i]? := by
  have hbefore : (before.flatMap Entity.indexes).length = (before.map Entity.indexCount).sum :=
    Schema.length_indexes { entities := before }
  rw [indexes, h, List.flatMap_append, List.flatMap_cons, ← hbefore,
    List.getElem?_append_right (Nat.le_add_right _ _), Nat.add_sub_cancel_left,
    List.getElem?_append_left (by rwa [Entity.length_indexes])]

/-- **Where an index stands in the manifest.** The list of indexes is as long as the runs of all
entities together. The run of an entity starts behind those of the earlier ones. In it the pairs of
an owner and a time come first, owner by owner, each ascending in the owner and descending in the
time; then the specifications, each with all its fields ascending. All of them are indexes of the
collection of the entity. A field `ownerId` without a tag is no owner, and it has no part in the
indexes unless it is a time. -/
theorem indexes_in_order (s : Schema) :
    s.indexes.length = (s.entities.map Entity.indexCount).sum ∧
      ∀ before e after, s.entities = before ++ e :: after →
        let start := (before.map Entity.indexCount).sum
        (∀ (i j : Nat) (hi : i < e.owners.length) (hj : j < e.times.length),
          s.indexes[start + (i * e.times.length + j)]? = some
            ⟨e.collection, [⟨e.owners[i].name, .ascending⟩, ⟨e.times[j].name, .descending⟩]⟩) ∧
        (∀ (i : Nat) (hi : i < e.indexSpecs.length),
          s.indexes[start + (e.owners.length * e.times.length + i)]? = some
            ⟨e.collection, e.indexSpecs[i].map fun path => ⟨path, .ascending⟩⟩) ∧
        ∀ front f back, e.fields = front ++ f :: back → f.name = "ownerId" → f.ownership = none →
          f ∉ e.owners ∧
            (f.type ≠ "timestamp" → { e with fields := front ++ back }.indexes = e.indexes) := by
  refine ⟨s.length_indexes, fun before e after he => ⟨fun i j hi hj => ?_, fun i hi => ?_, ?_⟩⟩
  · have hpair : i * e.times.length + j < e.owners.length * e.times.length :=
      Nat.lt_of_lt_of_le (Nat.add_lt_add_left hj _)
        (by rw [← Nat.succ_mul]; exact Nat.mul_le_mul_right _ hi)
    have hposition := Schema.getElem?_indexes he (Nat.lt_add_right e.indexSpecs.length hpair)
    rw [Entity.indexes, List.getElem?_append_left (by rwa [Entity.length_ownerTimeIndexes]),
      Entity.getElem?_ownerTimeIndexes hi hj] at hposition
    exact hposition
  · have hposition := Schema.getElem?_indexes he
      (Nat.add_lt_add_left hi (e.owners.length * e.times.length))
    rw [Entity.indexes, ← Entity.length_ownerTimeIndexes,
      List.getElem?_append_right (Nat.le_add_right _ _), Nat.add_sub_cancel_left,
      Entity.listedIndexes, List.getElem?_map, List.getElem?_eq_getElem hi,
      Entity.length_ownerTimeIndexes] at hposition
    exact hposition
  · intro front f back hfields hname htag
    have hnot := Field.not_ownsIndexes_of_ownerId hname htag
    exact ⟨by simp [Entity.owners, hnot], Entity.indexes_of_dropped hfields hnot⟩

/-- A field that is an owner and a time is paired with itself, and `ownerId` with nothing. -/
example :
    ({ name := "Log"
       collectionName := some "logs"
       fields := [{ name := "userIdSince", type := "timestamp" }, { name := "ownerId" }]
       indexSpecs := [["a", "b"]] } : Entity).indexes =
      [⟨"logs", [⟨"userIdSince", .ascending⟩, ⟨"userIdSince", .descending⟩]⟩,
        ⟨"logs", [⟨"a", .ascending⟩, ⟨"b", .ascending⟩]⟩] := by decide

end DocSchema
