/-!
# JSON values and their text

A JSON value as far as schemas, settings and reports need one, with two texts : the
compact one has no white space between its tokens, the pretty one puts each item and
each member on a line of its own, indented by two spaces for each level.

A string escapes the quotation mark, the backslash and the control characters below
`U+0020`, and nothing else.
-/

namespace NodeSchema

/-- A JSON value. The members of an object keep their order. -/
inductive Json where
  /-- The value `null`. -/
  | null
  /-- A string. -/
  | str (s : String)
  /-- An array. -/
  | arr (items : List Json)
  /-- An object. -/
  | obj (members : List (String × Json))

namespace Json

/-! ## Strings -/

/-- A digit in base sixteen, in lower case. -/
def hexDigit (n : Nat) : Char :=
  Nat.digitChar n

/-- A character inside the quotation marks of a string. -/
def escaped (c : Char) : List Char :=
  if c = '"' then ['\\', '"']
  else if c = '\\' then ['\\', '\\']
  else if c = '\x08' then ['\\', 'b']
  else if c = '\x0c' then ['\\', 'f']
  else if c = '\n' then ['\\', 'n']
  else if c = '\r' then ['\\', 'r']
  else if c = '\t' then ['\\', 't']
  else if c.toNat < 0x20 then
    ['\\', 'u', '0', '0', hexDigit (c.toNat / 16), hexDigit (c.toNat % 16)]
  else [c]

/-- A string with its quotation marks. -/
def string (s : String) : String :=
  String.ofList ('"' :: s.toList.flatMap escaped ++ ['"'])

/-! ## Compact text -/

mutual

/-- The compact text of a value. -/
def compact : Json → String
  | .null => "null"
  | .str s => string s
  | .arr items => "[" ++ ",".intercalate (compactItems items) ++ "]"
  | .obj members => "\x7b" ++ ",".intercalate (compactMembers members) ++ "\x7d"

/-- The compact texts of the items of an array. -/
def compactItems : List Json → List String
  | [] => []
  | item :: rest => compact item :: compactItems rest

/-- The compact texts of the members of an object. -/
def compactMembers : List (String × Json) → List String
  | [] => []
  | (key, value) :: rest => (string key ++ ":" ++ compact value) :: compactMembers rest

end

/-! ## Pretty text -/

/-- The start of a line at a level of nesting. -/
def lineStart (level : Nat) : String :=
  "\n" ++ String.ofList (List.replicate (2 * level) ' ')

/-- Brackets around entries, each on a line of the level inside; around none, nothing. -/
def bracketed (opening closing : String) (level : Nat) (entries : List String) : String :=
  if entries.isEmpty then opening ++ closing
  else
    opening ++ ",".intercalate (entries.map fun entry => lineStart (level + 1) ++ entry)
      ++ lineStart level ++ closing

mutual

/-- The pretty text of a value that starts at a level of nesting. -/
def prettyAt (level : Nat) : Json → String
  | .null => "null"
  | .str s => string s
  | .arr items => bracketed "[" "]" level (prettyItems (level + 1) items)
  | .obj members => bracketed "\x7b" "\x7d" level (prettyMembers (level + 1) members)

/-- The pretty texts of the items of an array. -/
def prettyItems (level : Nat) : List Json → List String
  | [] => []
  | item :: rest => prettyAt level item :: prettyItems level rest

/-- The pretty texts of the members of an object. -/
def prettyMembers (level : Nat) : List (String × Json) → List String
  | [] => []
  | (key, value) :: rest =>
    (string key ++ ": " ++ prettyAt level value) :: prettyMembers level rest

end

/-- The pretty text of a value. -/
def pretty (value : Json) : String :=
  prettyAt 0 value

end Json

end NodeSchema
