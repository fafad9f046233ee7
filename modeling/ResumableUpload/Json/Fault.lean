import ResumableUpload.Decimal.Shortest
import ResumableUpload.Text.Quoted

/-!
# What can be wrong with a JSON text

`Fault` lists every reason for which a text is refused, either because it is no JSON at all or
because it is JSON of another form than the one wanted. Readers report the first fault from the
left. `Fault.message` is the wording shown to people, without the place of the fault in the text.
-/

namespace ResumableUpload.Json

/-- What stands in a text where something else was wanted. -/
inductive Found
  | null
  | flag (b : Bool)
  | integer (n : Int)
  /-- A number that is no 64-bit integer, as the bits of its binary64 value. -/
  | real (bits : UInt64)
  | text (s : String)
  | list
  | object
  deriving DecidableEq, Repr

namespace Found

/-- The wording of what was found. -/
def describe : Found → String
  | null => "null"
  | flag b => s!"boolean `{b}`"
  | integer n => s!"integer `{n}`"
  | real bits => s!"floating point `{Decimal.renderShortest bits}`"
  | text s => s!"string {Text.quote s}"
  | list => "sequence"
  | object => "map"

end Found

/-- The first offence in a text, read from the left. -/
inductive Fault
  | eofValue
  | eofObject
  | eofList
  | eofText
  | expectedValue
  | expectedLiteral
  | expectedColon
  | expectedObjectEnd
  | expectedListEnd
  | keyNotText
  | trailingComma
  | trailingCharacters
  | invalidNumber
  | numberOutOfRange
  | invalidEscape
  | loneSurrogate
  | unfinishedSurrogate
  | controlCharacter
  /-- Something of another type than the one described by `wanted`. -/
  | wrongType (found : Found) (wanted : String)
  /-- An integer outside the range described by `wanted`. -/
  | wrongValue (n : Int) (wanted : String)
  /-- A list form that ends after `count` members. -/
  | wrongLength (count : Nat) (wanted : String)
  | missingField (name : String)
  | duplicateField (name : String)
  | unknownTag (name : String) (known : List String)
  deriving DecidableEq, Repr

namespace Fault

/-- A name between grave accents. -/
def ticked (s : String) : String := s!"`{s}`"

/-- The wording of a fault. Where it stands is said after that. -/
def message : Fault → String
  | eofValue => "EOF while parsing a value"
  | eofObject => "EOF while parsing an object"
  | eofList => "EOF while parsing a list"
  | eofText => "EOF while parsing a string"
  | expectedValue => "expected value"
  | expectedLiteral => "expected ident"
  | expectedColon => "expected `:`"
  | expectedObjectEnd => "expected `,` or `\x7d`"
  | expectedListEnd => "expected `,` or `]`"
  | keyNotText => "key must be a string"
  | trailingComma => "trailing comma"
  | trailingCharacters => "trailing characters"
  | invalidNumber => "invalid number"
  | numberOutOfRange => "number out of range"
  | invalidEscape => "invalid escape"
  | loneSurrogate => "lone leading surrogate in hex escape"
  | unfinishedSurrogate => "unexpected end of hex escape"
  | controlCharacter => "control character (\\u0000-\\u001F) found while parsing a string"
  | wrongType found wanted => s!"invalid type: {found.describe}, expected {wanted}"
  | wrongValue n wanted => s!"invalid value: integer `{n}`, expected {wanted}"
  | wrongLength count wanted => s!"invalid length {count}, expected {wanted}"
  | missingField name => s!"missing field `{name}`"
  | duplicateField name => s!"duplicate field `{name}`"
  | unknownTag name known =>
    let names := ", ".intercalate (known.map ticked)
    s!"unknown variant `{name}`, expected one of {names}"

end Fault

end ResumableUpload.Json
