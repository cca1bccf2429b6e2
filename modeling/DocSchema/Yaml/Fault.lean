import DocSchema.Calendar
import DocSchema.Text.Quoted

/-!
# Faults of a YAML text

A text is faulty in one of two ways. Either it is no YAML document of the kinds of values that
this library knows, which is a `Problem`, or it is one but a scalar does not denote a value of the
kind that it claims to be, which is a `ScalarFault`.
-/

namespace DocSchema.Yaml

/-- Why a text is no document. -/
inductive Problem
  /-- The text holds a control character. -/
  | character
  /-- No token starts like this. -/
  | token
  /-- A key of a block mapping lacks its colon. -/
  | missingColon
  /-- An entry of a block list, a key or a value stands where none may stand. -/
  | misplacedEntry
  | misplacedKey
  | misplacedValue
  /-- A line that starts with a percent sign is no directive. -/
  | directive
  /-- An anchor or alias has no name. -/
  | anchorName
  /-- A tag is incomplete. -/
  | tagForm
  /-- The line that opens a block text is ill-formed. -/
  | blockHeader
  /-- A backslash is followed by no escape. -/
  | escape
  /-- A quoted text does not end. -/
  | openQuote
  /-- The tokens form no tree. -/
  | arrangement
  /-- A directive is given twice or asks for another version. -/
  | version
  | undefinedHandle (handle : String)
  | undefinedAlias (name : String)
  | duplicateAnchor (name : String)
  /-- There is a second document. -/
  | severalDocuments
  /-- A node is not of the shape that its tag asks for. -/
  | shape
  | unknownTag
  | unhashableKey
  /-- What is merged into a mapping is no mapping. -/
  | mergeSource
  /-- The digits of binary data are ill-formed. -/
  | binary
  deriving DecidableEq, Repr

/-- The wording of a problem. -/
def Problem.message : Problem → String
  | character => "special characters are not allowed"
  | token => "found character that cannot start any token"
  | missingColon => "could not find expected ':'"
  | misplacedEntry => "sequence entries are not allowed here"
  | misplacedKey => "mapping keys are not allowed here"
  | misplacedValue => "mapping values are not allowed here"
  | directive => "found ill-formed directive"
  | anchorName => "expected alphabetic or numeric character"
  | tagForm => "found ill-formed tag"
  | blockHeader => "expected chomping or indentation indicators"
  | escape => "found unknown escape character"
  | openQuote => "found unexpected end of stream"
  | arrangement => "found unexpected token"
  | version => "found incompatible YAML document"
  | undefinedHandle handle => "found undefined tag handle " ++ Text.quoted handle
  | undefinedAlias name => "found undefined alias " ++ Text.quoted name
  | duplicateAnchor name => "found duplicate anchor " ++ Text.quoted name
  | severalDocuments => "expected a single document in the stream"
  | shape => "expected a node of another kind"
  | unknownTag => "could not determine a constructor for the tag"
  | unhashableKey => "found unhashable key"
  | mergeSource => "expected a mapping or list of mappings for merging"
  | binary => "failed to decode base64 data"

/-- Why a scalar does not denote a value of its kind. -/
inductive ScalarFault
  /-- A part of a date or time is out of range. -/
  | calendar (fault : CalendarFault)
  /-- The text is no integer in the given base. -/
  | integer (base : Nat) (text : String)
  /-- A decimal integer has more than 4300 digits. -/
  | integerLength (digits : Nat)
  /-- The text is no floating point number. -/
  | float (text : String)
  /-- The text is no truth value. -/
  | truth (text : String)
  /-- A number has no characters. -/
  | emptyNumber
  /-- The text is no date or time. -/
  | timestamp
  /-- An escape names a code point that does not exist. -/
  | codePoint
  deriving DecidableEq, Repr

/-- The wording of a fault. -/
def ScalarFault.message : ScalarFault → String
  | calendar fault => fault.message
  | integer base text =>
    "invalid literal for int() with base " ++ toString base ++ ": " ++ Text.quoted text
  | integerLength digits =>
    "Exceeds the limit (4300 digits) for integer string conversion: value has "
      ++ toString digits
      ++ " digits; use sys.set_int_max_str_digits() to increase the limit"
  | float text => "could not convert string to float: " ++ Text.quoted text
  | truth text => Text.quoted text
  | emptyNumber => "string index out of range"
  | timestamp => "'NoneType' object has no attribute 'groupdict'"
  | codePoint => "chr() arg not in range(0x110000)"

/-- A fault of a YAML text. -/
inductive Fault
  | problem (p : Problem)
  | scalar (f : ScalarFault)
  deriving DecidableEq, Repr

/-- The wording of a fault. -/
def Fault.message : Fault → String
  | problem p => p.message
  | scalar f => f.message

end DocSchema.Yaml
