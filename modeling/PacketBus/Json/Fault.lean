import PacketBus.Number.Decimal
import PacketBus.Payload.Mismatch

/-! # Faults in JSON text -/
namespace PacketBus.Json

inductive Fault
  | endInValue | endInList | endInObject | endInString
  | expectedIdent | expectedValue | expectedColon | expectedQuote
  | expectedListEnd | expectedObjectEnd
  | keyNotString | keyNotNumber
  | trailingComma | trailingCharacters
  | invalidNumber | numberOutOfRange
  | invalidEscape | loneSurrogate | cutSurrogate | invalidCodePoint | controlCharacter
  | depthLimit
  | mismatch (m : Mismatch)
  deriving DecidableEq, Repr

/-- Numbers of these magnitudes are written without an exponent. -/
def positionalScales : FloatKind → Int × Int
  | .single => (-6, 12)
  | .double => (-5, 15)

/-- The text of a finite number. -/
def floatText {f : FloatKind} (x : Binary f) : List Char :=
  let sign := if x.isNegative then ['-'] else []
  sign ++
    if x.isZero then ['0', '.', '0']
    else
      let d := Decimal.shortest .even x
      let (low, high) := positionalScales f
      if low ≤ d.scale ∧ d.scale ≤ high then d.positional else d.scientific

def dialect : Dialect := ⟨"null", fun x => String.ofList (floatText x)⟩

def Fault.message : Fault → String
  | endInValue => "EOF while parsing a value"
  | endInList => "EOF while parsing a list"
  | endInObject => "EOF while parsing an object"
  | endInString => "EOF while parsing a string"
  | expectedIdent => "expected ident"
  | expectedValue => "expected value"
  | expectedColon => "expected `:`"
  | expectedQuote => "expected `\"`"
  | expectedListEnd => "expected `,` or `]`"
  | expectedObjectEnd => "expected `,` or `\x7d`"
  | keyNotString => "key must be a string"
  | keyNotNumber => "invalid value: expected key to be a number in quotes"
  | trailingComma => "trailing comma"
  | trailingCharacters => "trailing characters"
  | invalidNumber => "invalid number"
  | numberOutOfRange => "number out of range"
  | invalidEscape => "invalid escape"
  | loneSurrogate => "lone leading surrogate in hex escape"
  | cutSurrogate => "unexpected end of hex escape"
  | invalidCodePoint => "invalid unicode code point"
  | controlCharacter => "control character (\\u0000-\\u001F) found while parsing a string"
  | depthLimit => "recursion limit exceeded"
  | mismatch m => m.message dialect

end PacketBus.Json
