import DocSchema.Schema.Model

/-!
# Capacity estimates

How large a record of an entity is likely to be, and how many of them the free allowance of one
gigabyte holds. Every field counts as fifty bytes.

## Main definitions

* `CapacityEstimate`, `Entity.capacity`
* `docSizeText`, `freeTierText`: the figures as they are shown

## Implementation notes

A figure that is shown in larger units is divided to the nearest binary number of 53 bits and then
rounded to the places shown. Both roundings send ties to the even neighbour.
-/

namespace DocSchema

open Number (Dyadic fixedChars)

/-- What a field counts. -/
def bytesPerField : Nat := 50

/-- The free allowance. -/
def freeTierBytes : Nat := 1024 * 1024 * 1024

/-- The greatest number of fields of a record that is not large. -/
def largeFieldCount : Nat := 20

/-- A coarse class of record sizes. -/
inductive SizeClass
  | typical
  | large
  | mayBeLarger
  deriving DecidableEq, Repr

namespace SizeClass

/-- The written form of a class. -/
def text : SizeClass → String
  | typical => "typical"
  | large => "large"
  | mayBeLarger => "may-be-larger"

/-- The explanation of a class. -/
def note : SizeClass → String
  | typical => "Typical size"
  | large => "Large document"
  | mayBeLarger => "May be larger (arrays/objects)"

/-- All classes. -/
def all : List SizeClass := [typical, large, mayBeLarger]

/-- The class with a given written form. -/
def ofText? (text : String) : Option SizeClass := all.find? fun size => size.text == text

end SizeClass

/-- The estimate for one entity. -/
structure CapacityEstimate where
  docBytes : Nat
  /-- The number of records that the allowance holds; records without fields take no space, and
  their number has no bound. -/
  freeTierDocs : Option Nat
  sizeClass : SizeClass
  deriving DecidableEq, Repr

/-- The size class of an entity. -/
def Entity.sizeClass (e : Entity) : SizeClass :=
  if e.fields.any fun field => nestedTypes.contains field.type then .mayBeLarger
  else if largeFieldCount < e.fields.length then .large
  else .typical

/-- The estimate for an entity. -/
def Entity.capacity (e : Entity) : CapacityEstimate :=
  let docBytes := e.fields.length * bytesPerField
  { docBytes
    freeTierDocs := if 0 < docBytes then some (freeTierBytes / docBytes) else none
    sizeClass := e.sizeClass }

/-! ## Figures as they are shown -/

/-- The quotient of an integer by a positive number, with a fixed number of decimal places. -/
def quotientText (num : Int) (den places : Nat) : String :=
  let units := (Dyadic.nearest num.natAbs den).toFixed places
  String.ofList ((if num < 0 then ['-'] else []) ++ fixedChars units places)

/-- A size in bytes, from 1024 on in kilobytes with one decimal place. -/
def docSizeText (bytes : Int) : String :=
  if bytes < 1024 then "~" ++ toString bytes ++ "B"
  else "~" ++ quotientText bytes 1024 1 ++ "KB"

/-- A number of records in thousands, or above a million in millions with one decimal place. -/
def freeTierText : Option Int → String
  | none => "unbounded"
  | some docs =>
    if 1000000 < docs then quotientText docs 1000000 1 ++ "M docs"
    else quotientText docs 1000 0 ++ "K docs"

end DocSchema
