import DocSchema.Access.Rules
import DocSchema.Report.Basic
import Mathlib.Data.List.Forall2

/-!
# The report tells what the rules grant

The rules file and the report are written from two tables that do not know of each other: the lines
of a policy, and its row of labels. This module gives the lines a meaning, gives the labels another
one, and shows that every request is granted by the lines exactly when the label says so.

## The meaning of a line

A request comes from a user or from nobody, is about one record, and carries the record as it is
stored and as it would be afterwards. `Condition.Holds` says when a condition is fulfilled by a
request. A function is unfolded to what the header of the rules file defines it to be, so a wrong
definition there would be a wrong meaning here.

The conditions are trees, while the file holds their written form. `Condition.Bracketed` is what
makes the two say the same: no alternative stands bare inside a conjunction.

## Missing values

A record need not have the field that a condition speaks of. What the database makes of a
comparison with a missing value is no matter of the rules, and it is a parameter here: `same` is
any relation of values that may be missing. The results hold for all of them, and so for the one
under which nothing is like a missing value.

## Main definitions

* `Request`, `Condition.Holds`, `AccessPolicy.Permits`: what the lines of a policy grant
* `LabelSays`: what a label of the report says

## Main results

* `access_report_agrees`: the rows of the report and the lines of the rules grant the same
-/

namespace DocSchema

/-! ## Requests -/

/-- How the database compares two values, each of which may be missing. -/
abbrev Comparison := Option Json → Option Json → Prop

/-- A user who is signed in. -/
structure User where
  uid : String
  /-- The claims in the token of the user. -/
  token : String → Option Json

/-- A request for one record. -/
structure Request where
  /-- The user, if somebody is signed in. -/
  user : Option User
  /-- The key of the record. -/
  docId : String
  /-- The fields of the record as it is stored. -/
  stored : String → Option Json
  /-- The fields of the record as it would be stored. -/
  incoming : String → Option Json

namespace Request

/-- The value of a reference, given the argument of the function that it stands in. -/
def value (r : Request) (argument : Option Json) : Reference → Option Json
  | .argument => argument
  | .docId => some (.text r.docId)
  | .stored field => r.stored field

/-- Somebody is signed in. -/
def SignedIn (r : Request) : Prop := ∃ u, r.user = some u

/-- The user is an administrator. -/
def IsAdmin (same : Comparison) (r : Request) : Prop :=
  ∃ u, r.user = some u ∧ same (u.token "role") (some (.text "admin"))

/-- The identity of the user is a given value. -/
def IsUser (same : Comparison) (r : Request) (v : Option Json) : Prop :=
  ∃ u, r.user = some u ∧ same (some (.text u.uid)) v

/-- The role in the record stays as it is. -/
def KeepsRole (same : Comparison) (r : Request) : Prop := same (r.incoming "role") (r.stored "role")

end Request

/-! ## Conditions -/

/-- A condition is fulfilled by a request, inside a function with the given argument. -/
inductive Condition.Holds (same : Comparison) (r : Request) : Option Json → Condition → Prop
  | signedIn {argument : Option Json} (h : r.SignedIn) : Holds same r argument .signedIn
  | adminRole {argument : Option Json} {u : User} (hu : r.user = some u)
      (h : same (u.token "role") (some (.text "admin"))) : Holds same r argument .adminRole
  | uidEquals {argument : Option Json} {reference : Reference} {u : User} (hu : r.user = some u)
      (h : same (some (.text u.uid)) (r.value argument reference)) :
      Holds same r argument (.uidEquals reference)
  | roleKept {argument : Option Json} (h : r.KeepsRole same) : Holds same r argument .roleKept
  | call {argument : Option Json} {helper : Helper} (h : Holds same r none helper.body) :
      Holds same r argument (.call helper)
  | callWith {argument : Option Json} {helper : Helper} {reference : Reference}
      (h : Holds same r (r.value argument reference) helper.body) :
      Holds same r argument (.callWith helper reference)
  | both {argument : Option Json} {a b : Condition} (ha : Holds same r argument a)
      (hb : Holds same r argument b) : Holds same r argument (.both a b)
  | left {argument : Option Json} {a b : Condition} (h : Holds same r argument a) :
      Holds same r argument (.either a b)
  | right {argument : Option Json} {a b : Condition} (h : Holds same r argument b) :
      Holds same r argument (.either a b)
  | grouped {argument : Option Json} {a : Condition} (h : Holds same r argument a) :
      Holds same r argument (.grouped a)

namespace Condition

variable {same : Comparison} {r : Request} {argument : Option Json}

@[simp] theorem holds_both {a b : Condition} :
    Holds same r argument (.both a b) ↔ Holds same r argument a ∧ Holds same r argument b := by
  constructor
  · intro h
    cases h with
    | both ha hb => exact ⟨ha, hb⟩
  · rintro ⟨ha, hb⟩
    exact .both ha hb

@[simp] theorem holds_either {a b : Condition} :
    Holds same r argument (.either a b) ↔ Holds same r argument a ∨ Holds same r argument b := by
  constructor
  · intro h
    cases h with
    | left h => exact .inl h
    | right h => exact .inr h
  · rintro (h | h)
    · exact .left h
    · exact .right h

@[simp] theorem holds_grouped {a : Condition} :
    Holds same r argument (.grouped a) ↔ Holds same r argument a := by
  constructor
  · intro h
    cases h with
    | grouped h => exact h
  · exact .grouped

@[simp] theorem holds_roleKept : Holds same r argument .roleKept ↔ r.KeepsRole same := by
  constructor
  · intro h
    cases h with
    | roleKept h => exact h
  · exact .roleKept

/-! ### The functions of the header

What a call comes to once the function is unfolded to its definition. -/

@[simp] theorem holds_isAuthenticated :
    Holds same r argument (.call .isAuthenticated) ↔ r.SignedIn := by
  constructor
  · intro h
    cases h with
    | call h =>
      cases h with
      | signedIn h => exact h
  · intro h
    exact .call (.signedIn h)

@[simp] theorem holds_isAdmin : Holds same r argument (.call .isAdmin) ↔ r.IsAdmin same := by
  constructor
  · intro h
    cases h with
    | call h =>
      obtain ⟨-, h⟩ := holds_both.mp h
      cases h with
      | adminRole hu h => exact ⟨_, hu, h⟩
  · rintro ⟨u, hu, h⟩
    exact .call (.both (holds_isAuthenticated.mpr ⟨u, hu⟩) (.adminRole hu h))

@[simp] theorem holds_isOwner {reference : Reference} :
    Holds same r argument (.callWith .isOwner reference) ↔
      r.IsUser same (r.value argument reference) := by
  constructor
  · intro h
    cases h with
    | callWith h =>
      obtain ⟨-, h⟩ := holds_both.mp h
      cases h with
      | uidEquals hu h => exact ⟨_, hu, h⟩
  · rintro ⟨u, hu, h⟩
    exact .callWith (.both (holds_isAuthenticated.mpr ⟨u, hu⟩) (.uidEquals hu h))

/-! ### Written forms -/

/-- A condition is an alternative whose written form has no brackets around it. -/
def IsBare : Condition → Prop
  | .either _ _ => True
  | _ => False

/-- No alternative stands bare inside a conjunction, so that the written form reads as it is
meant: a conjunction binds closer than an alternative. -/
def Bracketed : Condition → Prop
  | .both a b => ¬ a.IsBare ∧ ¬ b.IsBare ∧ a.Bracketed ∧ b.Bracketed
  | .either a b => a.Bracketed ∧ b.Bracketed
  | .grouped a => a.Bracketed
  | _ => True

end Condition

/-! ## What the lines grant -/

/-- What can be done with a record. -/
inductive Operation
  | read
  | create
  | update
  | delete
  deriving DecidableEq, Repr

/-- The operations that a method stands for. -/
def Method.operations : Method → List Operation
  | read => [.read]
  | create => [.create]
  | update => [.update]
  | delete => [.delete]
  | write => [.create, .update, .delete]

/-- Whether a line is about an operation. -/
def AllowLine.covers (l : AllowLine) (o : Operation) : Bool :=
  l.methods.any fun method => method.operations.contains o

namespace AccessPolicy

/-- The lines of a policy grant an operation to a request. -/
def Permits (same : Comparison) (p : AccessPolicy) (r : Request) (o : Operation) : Prop :=
  ∃ l ∈ p.allowLines, l.covers o = true ∧ l.condition.Holds same r none

/-- No two lines of a policy compete for an operation, and none is left out. -/
theorem exists_filter_covers_eq_singleton (p : AccessPolicy) (o : Operation) :
    ∃ l, p.allowLines.filter (·.covers o) = [l] := by
  cases p <;> cases o <;> exact ⟨_, rfl⟩

/-- The only line that covers an operation decides about it. -/
theorem permits_iff {same : Comparison} {p : AccessPolicy} {r : Request} {o : Operation}
    {l : AllowLine} (h : p.allowLines.filter (·.covers o) = [l]) :
    p.Permits same r o ↔ l.condition.Holds same r none := by
  have hmem : ∀ l', l' ∈ p.allowLines ∧ l'.covers o = true ↔ l' = l := by
    intro l'
    have hl' : l' ∈ p.allowLines.filter (·.covers o) ↔ l' = l := by rw [h, List.mem_singleton]
    rwa [List.mem_filter] at hl'
  constructor
  · rintro ⟨l', hl', hcov, hholds⟩
    rw [(hmem l').mp ⟨hl', hcov⟩] at hholds
    exact hholds
  · intro hholds
    obtain ⟨hl, hcov⟩ := (hmem l).mpr rfl
    exact ⟨l, hl, hcov, hholds⟩

theorem bracketed_allowLines (p : AccessPolicy) : ∀ l ∈ p.allowLines, l.condition.Bracketed := by
  cases p <;> simp [allowLines, Condition.Bracketed, Condition.IsBare]

end AccessPolicy

/-! ## What the labels say -/

/-- The user is the owner of the record under a policy. -/
def Request.IsOwner (same : Comparison) (r : Request) : AccessPolicy → Prop
  | .ownership field => r.IsUser same (r.stored field)
  | .userProfile => r.IsUser same (some (.text r.docId))
  | .standard => False

/-- What a label of the report says about a request, for a collection with a given policy. -/
def LabelSays (same : Comparison) (p : AccessPolicy) (r : Request) : String → Prop
  | "Authenticated" => r.SignedIn
  | "Admin only" => r.IsAdmin same
  | "Owner + Admin" => r.IsAdmin same ∨ r.IsOwner same p
  | "Owner + Admin (role locked)" => r.IsAdmin same ∨ r.IsOwner same p ∧ r.KeepsRole same
  | _ => False

/-- The label of an operation in a row of the report. -/
def Grants.label (g : Grants) : Operation → String
  | .read => g.read.text
  | .create => g.create.text
  | .update => g.update.text
  | .delete => g.delete.text

/-- For each policy, the lines and the labels grant the same. -/
theorem AccessPolicy.permits_iff_labelSays (same : Comparison) (p : AccessPolicy) (r : Request)
    (o : Operation) : p.Permits same r o ↔ LabelSays same p r (p.grants.label o) := by
  obtain ⟨l, hl⟩ := p.exists_filter_covers_eq_singleton o
  rw [permits_iff hl]
  cases p <;> cases o <;> cases hl <;>
    simp [LabelSays, Grants.label, AccessPolicy.grants, Grantee.text, Request.IsOwner,
      Request.value]

/-- **The report and the rules describe the same access.** The report has a row for every entity,
in order. For the entity and its row, every operation is covered by exactly one line, the written
condition of each line reads as it is meant, and a request is granted by the lines exactly when the
label of the row says so. -/
theorem access_report_agrees (s : Schema) :
    List.Forall₂
      (fun (e : Entity) (row : CollectionAccess) =>
        row.collection = e.collection ∧ row.policy = e.policy ∧
        (∀ l ∈ e.policy.allowLines, l.condition.Bracketed) ∧
        ∀ o, (∃ l, e.policy.allowLines.filter (·.covers o) = [l]) ∧
          ∀ same r, e.policy.Permits same r o ↔ LabelSays same row.policy r (row.grants.label o))
      s.entities s.report.access := by
  have hrows : s.report.access = s.entities.map Entity.access := rfl
  rw [hrows, List.forall₂_map_right_iff, List.forall₂_same]
  intro e _
  refine ⟨rfl, rfl, e.policy.bracketed_allowLines, fun o => ?_⟩
  exact ⟨e.policy.exists_filter_covers_eq_singleton o,
    fun same r => e.policy.permits_iff_labelSays same r o⟩

end DocSchema
