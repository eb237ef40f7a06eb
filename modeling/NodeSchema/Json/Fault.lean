import NodeSchema.Text.Quoted

/-!
# Faults of a JSON text

What can be wrong at a point of a JSON text (`Json.Reason`), the point itself as the
text that remains to be read (`Json.Stop`), and the line and column at which a message
places it (`Json.Fault`). Columns count the bytes of the UTF-8 form that have been read
on the line.
-/

namespace NodeSchema.Json

/-- What is wrong at a point of a JSON text. -/
inductive Reason where
  /-- The text ends where a value has to stand. -/
  | endInValue
  /-- The text ends inside an object. -/
  | endInObject
  /-- The text ends inside an array. -/
  | endInArray
  /-- The text ends inside a string. -/
  | endInString
  /-- A member does not start with a string. -/
  | keyNotString
  /-- A comma is followed by the end of the object or array. -/
  | trailingComma
  /-- An array goes on after its last possible item. -/
  | trailingCharacters
  /-- A key is not followed by a colon. -/
  | expectedColon
  /-- A member is followed neither by a comma nor by the end of the object. -/
  | expectedMemberEnd
  /-- An item is followed neither by a comma nor by the end of the array. -/
  | expectedItemEnd
  /-- A word is not `null`, `true` or `false`. -/
  | expectedWord
  /-- No value starts here. -/
  | expectedValue
  /-- The text is not a number. -/
  | invalidNumber
  /-- The number is larger than every double. -/
  | numberOutOfRange
  /-- The backslash starts no escape. -/
  | invalidEscape
  /-- One half of a surrogate pair stands alone. -/
  | loneSurrogate
  /-- The first half of a surrogate pair is not followed by an escape. -/
  | unpairedSurrogate
  /-- A control character stands in a string. -/
  | controlCharacter
  /-- A value of another kind than the expected one, as `found` describes it. -/
  | wrongType (found expected : String)
  /-- A string that is not made of exactly one character. -/
  | notACharacter (s : String)
  /-- A key that the object does not have. -/
  | unknownKey (key : String) (known : List String)
  /-- A key that has been met before. -/
  | duplicateKey (key : String)
deriving DecidableEq

/-- Names in backticks, with commas between them. -/
def listed (names : List String) : String :=
  ", ".intercalate (names.map fun name => "`" ++ name ++ "`")

/-- The wording of a reason. -/
def Reason.message : Reason → String
  | endInValue => "EOF while parsing a value"
  | endInObject => "EOF while parsing an object"
  | endInArray => "EOF while parsing a list"
  | endInString => "EOF while parsing a string"
  | keyNotString => "key must be a string"
  | trailingComma => "trailing comma"
  | trailingCharacters => "trailing characters"
  | expectedColon => "expected `:`"
  | expectedMemberEnd => "expected `,` or `\x7d`"
  | expectedItemEnd => "expected `,` or `]`"
  | expectedWord => "expected ident"
  | expectedValue => "expected value"
  | invalidNumber => "invalid number"
  | numberOutOfRange => "number out of range"
  | invalidEscape => "invalid escape"
  | loneSurrogate => "lone leading surrogate in hex escape"
  | unpairedSurrogate => "unexpected end of hex escape"
  | controlCharacter => "control character (\\u0000-\\u001F) found while parsing a string"
  | wrongType found expected => "invalid type: " ++ found ++ ", expected " ++ expected
  | notACharacter s => "invalid value: string " ++ Text.quoted s ++ ", expected a character"
  | unknownKey key known => "unknown field `" ++ key ++ "`, expected one of " ++ listed known
  | duplicateKey key => "duplicate field `" ++ key ++ "`"

/-- A point at which reading stops : the reason, the text that remains, and how many
bytes of it the reported position is ahead. -/
structure Stop where
  /-- What is wrong. -/
  reason : Reason
  /-- The text that has not been read. -/
  rest : List Char
  /-- How many bytes the reported position is past the start of the rest. -/
  ahead : Nat
deriving DecidableEq

/-- Reading stops before the rest. -/
def Stop.before (reason : Reason) (rest : List Char) : Stop :=
  ⟨reason, rest, 0⟩

/-- Reading stops on the next byte of the rest. -/
def Stop.on (reason : Reason) (rest : List Char) : Stop :=
  ⟨reason, rest, 1⟩

/-- The number of bytes of the UTF-8 form of a text. -/
def byteCount (s : List Char) : Nat :=
  s.foldr (fun c count => c.utf8Size + count) 0

/-- A place in a text. -/
structure Position where
  /-- The line, counted from one. -/
  line : Nat
  /-- The number of bytes before the place on its line. -/
  column : Nat
deriving DecidableEq

/-- The place `bytes` bytes after a given place, where the text `s` starts. A place past
the end of the text is its end. -/
def Position.advance (here : Position) (bytes : Nat) : List Char → Position
  | [] => here
  | c :: rest =>
    if bytes < c.utf8Size then { here with column := here.column + bytes }
    else if c = '\n' then Position.advance ⟨here.line + 1, 0⟩ (bytes - 1) rest
    else
      Position.advance { here with column := here.column + c.utf8Size } (bytes - c.utf8Size) rest

/-- The place at which the reading of a text stopped. -/
def Stop.position (stop : Stop) (text : List Char) : Position :=
  Position.advance ⟨1, 0⟩ (byteCount text - byteCount stop.rest + stop.ahead) text

/-- A reason with its place in the text. -/
structure Fault where
  /-- What is wrong. -/
  reason : Reason
  /-- Where. -/
  place : Position
deriving DecidableEq

/-- The fault of a text at which its reading stopped. -/
def Stop.fault (stop : Stop) (text : List Char) : Fault :=
  ⟨stop.reason, stop.position text⟩

/-- The wording of a fault. -/
def Fault.message (fault : Fault) : String :=
  fault.reason.message ++ " at line " ++ toString fault.place.line ++ " column "
    ++ toString fault.place.column

end NodeSchema.Json
