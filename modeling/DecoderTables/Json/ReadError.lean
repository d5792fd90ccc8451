import DecoderTables.Decimal.Notation
import DecoderTables.Json.Value
import DecoderTables.Text.Quoted

/-!
Why a text was not read, and the words for it. A fault of syntax, the end of the text and data of
another shape than the reader expects are three different categories.
-/

namespace DecoderTables.Json
open Decimal

/-- What the end of the text cut off. -/
inductive Part where
  | value
  | list
  | object
  | string

/-- A value as it is named where another shape was expected. -/
inductive Shape where
  | null
  | bool (b : Bool)
  | number (n : Number)
  | string (text : String)
  | sequence
  | map

inductive ReadError where
  | endOfText (inside : Part)
  | expectedValue
  | expectedWord
  | expectedColon
  | expectedCommaOrBracket
  | expectedCommaOrBrace
  | keyNotString
  | trailingComma
  | trailingCharacters
  | invalidNumber
  | numberOutOfRange
  | invalidEscape
  | controlCharacter
  | unfinishedPair
  | loneSurrogate
  | tooDeep
  | wrongShape (found : Shape) (expected : String)
  | wrongLength (found : Nat) (expected : String)
  | missingMember (name : String)
  | repeatedMember (name : String)

inductive Category where
  | syntactic
  | endOfText
  | data

def Part.name : Part → String
  | .value => "a value"
  | .list => "a list"
  | .object => "an object"
  | .string => "a string"

def Number.text : Number → List Char
  | .integer n => (toString n.value).toList
  | .real x => x.text

def Shape.name : Shape → String
  | .null => "null"
  | .bool b => s!"boolean \x60{b}\x60"
  | .number (.integer n) => s!"integer \x60{n.value}\x60"
  | .number (.real x) => "floating point \x60" ++ String.ofList x.text ++ "\x60"
  | .string text => "string " ++ Text.quoted text
  | .sequence => "sequence"
  | .map => "map"

namespace ReadError

def category : ReadError → Category
  | .endOfText _ => .endOfText
  | .wrongShape .. | .wrongLength .. | .missingMember _ | .repeatedMember _ => .data
  | _ => .syntactic

def message : ReadError → String
  | .endOfText inside => "EOF while parsing " ++ inside.name
  | .expectedValue => "expected value"
  | .expectedWord => "expected ident"
  | .expectedColon => "expected \x60:\x60"
  | .expectedCommaOrBracket => "expected \x60,\x60 or \x60]\x60"
  | .expectedCommaOrBrace => "expected \x60,\x60 or \x60\x7d\x60"
  | .keyNotString => "key must be a string"
  | .trailingComma => "trailing comma"
  | .trailingCharacters => "trailing characters"
  | .invalidNumber => "invalid number"
  | .numberOutOfRange => "number out of range"
  | .invalidEscape => "invalid escape"
  | .controlCharacter => "control character (\\u0000-\\u001F) found while parsing a string"
  | .unfinishedPair => "unexpected end of hex escape"
  | .loneSurrogate => "lone leading surrogate in hex escape"
  | .tooDeep => "recursion limit exceeded"
  | .wrongShape found expected => s!"invalid type: {found.name}, expected {expected}"
  | .wrongLength found expected => s!"invalid length {found}, expected {expected}"
  | .missingMember name => s!"missing field \x60{name}\x60"
  | .repeatedMember name => s!"duplicate field \x60{name}\x60"

end ReadError

end DecoderTables.Json
