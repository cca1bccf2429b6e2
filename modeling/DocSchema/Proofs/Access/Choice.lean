import DocSchema.Access.Policy
import DocSchema.Proofs.Index.Order
import Mathlib.Logic.Relation

/-!
# The choice of a policy

The policy of an entity is decided by its first owner. Which field is an owner is told by its tag
alone, or by its name if it has no tag; a field that is tagged as no owner is none, whatever its
name is.

So most changes of an entity make no difference: the fields that are no owners may come, go, change
and move between the owners, and behind an owner everything may change. If there is an owner, the
name of the entity does not matter either. The module says what each of these changes is and carries
the policy through any number of them.

## Main definitions

* `Field.OwnsRecords`: a field is an owner for access rules
* `Entity.ChangedAside`: one change beside the first owner

## Main results

* `Entity.policy_eq_of_changedAside`: such a change keeps the policy
* `policy_of_first_owner`
-/

namespace DocSchema

/-! ## Owners -/

/-- A field is an owner for access rules: it is tagged so or, without a tag, a word in its name says
so. -/
def Field.OwnsRecords (f : Field) : Prop :=
  (f.ownership = some .owner ∨ f.ownership = some .accessOwner) ∨
    f.ownership = none ∧ ("userId".toList <:+: f.name.toList ∨ "agentId".toList <:+: f.name.toList ∨
      "ownerId".toList <:+: f.name.toList)

instance (f : Field) : Decidable f.OwnsRecords :=
  inferInstanceAs (Decidable ((_ ∨ _) ∨ _ ∧ (_ ∨ _ ∨ _)))

theorem Ownership.grantsAccess_iff {o : Ownership} :
    o.grantsAccess = true ↔ o = .owner ∨ o = .accessOwner := by
  cases o <;> simp [grantsAccess]

/-- By its name a field is an owner if one of three words occurs in it. -/
theorem Ownership.grantsAccess_ofName_iff {name : String} :
    (ofName name).grantsAccess = true ↔ "userId".toList <:+: name.toList ∨
      "agentId".toList <:+: name.toList ∨ "ownerId".toList <:+: name.toList := by
  have hindex : hasMarker indexOwnerMarkers name = true ↔
      "userId".toList <:+: name.toList ∨ "agentId".toList <:+: name.toList := by
    simp [hasMarker, indexOwnerMarkers, Text.occursIn_iff]
  have haccess : hasMarker accessOwnerMarkers name = true ↔ "userId".toList <:+: name.toList ∨
      "agentId".toList <:+: name.toList ∨ "ownerId".toList <:+: name.toList := by
    simp [hasMarker, accessOwnerMarkers, indexOwnerMarkers, Text.occursIn_iff]
  rw [← haccess, grantsAccess_iff, ofName]
  split_ifs with howner hother
  · -- the words of the first list are among those of the second
    have hsome := haccess.mpr ((hindex.mp howner).imp_right Or.inl)
    simp [hsome]
  · simp [hother]
  · simp [hother]

theorem Field.grantsAccess_iff {f : Field} : f.grantsAccess = true ↔ f.OwnsRecords := by
  rw [grantsAccess, resolvedOwnership, OwnsRecords]
  cases f.ownership with
  | none => simp [Ownership.grantsAccess_ofName_iff]
  | some o => simp [Ownership.grantsAccess_iff]

theorem Field.grantsAccess_eq_false_iff {f : Field} : f.grantsAccess = false ↔ ¬ f.OwnsRecords := by
  rw [← grantsAccess_iff, Bool.not_eq_true]

/-! ## Policies -/

namespace Entity

variable {d e : Entity}

/-- A field is the first owner of an entity. -/
def FirstOwner (e : Entity) (f : Field) : Prop :=
  ∃ before after, e.fields = before ++ f :: after ∧ f.OwnsRecords ∧ ∀ g ∈ before, ¬ g.OwnsRecords

theorem find?_grantsAccess_eq_some_iff {f : Field} :
    e.fields.find? Field.grantsAccess = some f ↔ e.FirstOwner f := by
  rw [List.find?_eq_some_iff_append, FirstOwner, Field.grantsAccess_iff]
  constructor
  · rintro ⟨hf, before, after, hfields, hbefore⟩
    refine ⟨before, after, hfields, hf, fun g hg => ?_⟩
    rw [← Field.grantsAccess_eq_false_iff, ← Bool.not_eq_true']
    exact hbefore g hg
  · rintro ⟨before, after, hfields, hf, hbefore⟩
    refine ⟨hf, before, after, hfields, fun g hg => ?_⟩
    rw [Bool.not_eq_true', Field.grantsAccess_eq_false_iff]
    exact hbefore g hg

theorem find?_grantsAccess_eq_none_iff :
    e.fields.find? Field.grantsAccess = none ↔ ∀ f ∈ e.fields, ¬ f.OwnsRecords := by
  rw [List.find?_eq_none]
  simp only [Field.grantsAccess_iff]

theorem isUserProfile_iff :
    e.isUserProfile = true ↔ "user".toList <:+: (Text.lower e.name).toList := Text.occursIn_iff

theorem policy_eq_ownership_iff {owner : String} :
    e.policy = .ownership owner ↔ ∃ f, e.FirstOwner f ∧ f.name = owner := by
  simp only [← find?_grantsAccess_eq_some_iff]
  rw [policy]
  cases e.fields.find? Field.grantsAccess with
  | some f => simp
  | none =>
    dsimp only
    split_ifs <;> simp

theorem policy_eq_userProfile_iff :
    e.policy = .userProfile ↔ (∀ f ∈ e.fields, ¬ f.OwnsRecords) ∧
      "user".toList <:+: (Text.lower e.name).toList := by
  rw [← find?_grantsAccess_eq_none_iff, ← isUserProfile_iff, policy]
  cases e.fields.find? Field.grantsAccess with
  | some f => simp
  | none => simp

theorem policy_eq_standard_iff :
    e.policy = .standard ↔ (∀ f ∈ e.fields, ¬ f.OwnsRecords) ∧
      ¬ "user".toList <:+: (Text.lower e.name).toList := by
  rw [← find?_grantsAccess_eq_none_iff, ← isUserProfile_iff, policy]
  cases e.fields.find? Field.grantsAccess with
  | some f => simp
  | none => simp

/-! ## Changes -/

/-- One change of an entity beside its first owner. -/
inductive ChangedAside (e : Entity) : Entity → Prop
  /-- A field that is no owner is new. -/
  | insert {before after : List Field} {f : Field} (hfields : e.fields = before ++ after)
    (hf : ¬ f.OwnsRecords) : ChangedAside e { e with fields := before ++ f :: after }
  /-- A field that is no owner is gone. -/
  | delete {before after : List Field} {f : Field} (hfields : e.fields = before ++ f :: after)
    (hf : ¬ f.OwnsRecords) : ChangedAside e { e with fields := before ++ after }
  /-- A field that is no owner has become another one that is none. -/
  | replace {before after : List Field} {f g : Field} (hfields : e.fields = before ++ f :: after)
    (hf : ¬ f.OwnsRecords) (hg : ¬ g.OwnsRecords) :
    ChangedAside e { e with fields := before ++ g :: after }
  /-- The fields have another order, but not the owners among them. -/
  | permute {fields : List Field} (hperm : e.fields.Perm fields)
    (howners : (e.fields.filter fun f => f.OwnsRecords) = fields.filter fun f => f.OwnsRecords) :
    ChangedAside e { e with fields }
  /-- Other fields stand behind an owner. -/
  | behind {before after after' : List Field} {f : Field} (hfields : e.fields = before ++ f :: after)
    (hf : f.OwnsRecords) : ChangedAside e { e with fields := before ++ f :: after' }
  /-- With an owner among its fields the entity is called otherwise. -/
  | rename {f : Field} (hmem : f ∈ e.fields) (hf : f.OwnsRecords) (name : String) :
    ChangedAside e { e with name }

/-- Nothing counts but the first owner and, if there is none, the name. -/
theorem policy_congr
    (hfirst : d.fields.find? Field.grantsAccess = e.fields.find? Field.grantsAccess)
    (hname : d.name = e.name) : d.policy = e.policy := by
  rw [policy, policy, hfirst, isUserProfile, isUserProfile, hname]

theorem find?_grantsAccess_of_not_owner {f : Field} (hf : ¬ f.OwnsRecords)
    (before after : List Field) :
    (before ++ f :: after).find? Field.grantsAccess =
      (before ++ after).find? Field.grantsAccess := by
  rw [List.find?_append, List.find?_append, List.find?_cons_of_neg]
  rwa [Field.grantsAccess_iff]

theorem find?_grantsAccess_of_owner {f : Field} (hf : f.OwnsRecords) (before after : List Field) :
    (before ++ f :: after).find? Field.grantsAccess =
      (before.find? Field.grantsAccess).or (some f) := by
  rw [List.find?_append, List.find?_cons_of_pos (Field.grantsAccess_iff.mpr hf)]

/-- A change beside the first owner keeps the policy. -/
theorem policy_eq_of_changedAside (h : e.ChangedAside d) : d.policy = e.policy := by
  cases h with
  | insert hfields hf =>
    refine policy_congr ?_ rfl
    rw [hfields]
    exact find?_grantsAccess_of_not_owner hf _ _
  | delete hfields hf =>
    refine policy_congr ?_ rfl
    rw [hfields]
    exact (find?_grantsAccess_of_not_owner hf _ _).symm
  | replace hfields hf hg =>
    refine policy_congr ?_ rfl
    rw [hfields, find?_grantsAccess_of_not_owner hf]
    exact find?_grantsAccess_of_not_owner hg _ _
  | permute hperm howners =>
    refine policy_congr ?_ rfl
    have hpred : Field.grantsAccess = fun f => decide f.OwnsRecords :=
      funext fun f => Bool.eq_iff_iff.mpr (by rw [Field.grantsAccess_iff, decide_eq_true_iff])
    rw [← List.head?_filter, ← List.head?_filter, hpred, howners]
  | behind hfields hf =>
    refine policy_congr ?_ rfl
    rw [hfields]
    exact (find?_grantsAccess_of_owner hf _ _).trans (find?_grantsAccess_of_owner hf _ _).symm
  | @rename f hmem hf name =>
    obtain ⟨first, hfirst⟩ := Option.isSome_iff_exists.mp
      (List.find?_isSome.mpr ⟨f, hmem, Field.grantsAccess_iff.mpr hf⟩)
    rw [policy, policy, hfirst]

/-- Any number of changes beside the first owner keeps the policy. -/
theorem policy_eq_of_changesAside (h : Relation.ReflTransGen ChangedAside e d) :
    d.policy = e.policy := by
  induction h with
  | refl => rfl
  | tail _ hlast ih => exact (policy_eq_of_changedAside hlast).trans ih

end Entity

/-- **The policy of an entity is decided by its first owner.** If there is one it is named by the
policy; otherwise the name of the entity decides. The policy stays through all changes beside the
first owner. -/
theorem policy_of_first_owner (e : Entity) :
    (∀ owner, e.policy = .ownership owner ↔ ∃ f, e.FirstOwner f ∧ f.name = owner) ∧
    (e.policy = .userProfile ↔ (∀ f ∈ e.fields, ¬ f.OwnsRecords) ∧
      "user".toList <:+: (Text.lower e.name).toList) ∧
    (e.policy = .standard ↔ (∀ f ∈ e.fields, ¬ f.OwnsRecords) ∧
      ¬ "user".toList <:+: (Text.lower e.name).toList) ∧
    ∀ d, Relation.ReflTransGen Entity.ChangedAside e d → d.policy = e.policy :=
  ⟨fun _ => Entity.policy_eq_ownership_iff, Entity.policy_eq_userProfile_iff,
    Entity.policy_eq_standard_iff, fun _ => Entity.policy_eq_of_changesAside⟩

-- A tag counts before the name: the first owner here is the second field.
example :
    Entity.policy ⟨"User", none, [⟨"userId", "text", false, .null, some .none⟩,
      ⟨"writer", "text", false, .null, some .accessOwner⟩, ⟨"ownerId", "text", false, .null, none⟩],
      [], []⟩ = .ownership "writer" := by
  decide

end DocSchema
