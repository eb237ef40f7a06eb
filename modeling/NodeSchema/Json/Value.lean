import NodeSchema.Json.Number

/-!
# Reading values of an expected kind

A value of the wrong kind is still read, as far as that is needed to say what it is :
words, numbers and strings to their end, arrays and objects not at all. What is wrong
inside it is then the fault that is reported (`wrongType`).
-/

namespace NodeSchema.Json

/-- Reads the rest of a word whose first letter has been read. -/
def readWord (s : List Char) : List Char → Except Stop (List Char)
  | [] => .ok s
  | expected :: more =>
    match s with
    | [] => .error (.before .endInValue [])
    | c :: rest => if c = expected then readWord rest more else .error (.on .expectedWord s)

/-- Describes the value that starts a text, and gives the text that remains. -/
def describeValue (s : List Char) : Except Stop (String × List Char) :=
  match s with
  | 'n' :: rest => (readWord rest "ull".toList).map fun left => ("null", left)
  | 't' :: rest => (readWord rest "rue".toList).map fun left => ("boolean `true`", left)
  | 'f' :: rest => (readWord rest "alse".toList).map fun left => ("boolean `false`", left)
  | '-' :: rest => (readUnsigned true rest).map fun read => (read.1.describe, read.2)
  | '"' :: rest =>
    (readString rest).map fun read =>
      ("string " ++ NodeSchema.Text.quoted (String.ofList read.1), read.2)
  | '[' :: _ => .ok ("sequence", s)
  | '\x7b' :: _ => .ok ("map", s)
  | c :: _ =>
    if c.isDigit then (readUnsigned false s).map fun read => (read.1.describe, read.2)
    else .error (.on .expectedValue s)
  | [] => .error (.on .endInValue [])

/-- The stop at a value that is not of the expected kind. -/
def wrongType (expected : String) (s : List Char) : Stop :=
  match describeValue s with
  | .ok (found, rest) => .before (.wrongType found expected) rest
  | .error stop => stop

/-- Reads a string, after any white space. -/
def readStringValue (expected : String) (s : List Char) : Except Stop (List Char × List Char) :=
  match skipSpace s with
  | '"' :: rest => readString rest
  | other => .error (wrongType expected other)

/-- Reads a string of exactly one character. -/
def readCharValue (s : List Char) : Except Stop (Char × List Char) :=
  match readStringValue "a character" s with
  | .error stop => .error stop
  | .ok ([c], rest) => .ok (c, rest)
  | .ok (text, rest) => .error (.before (.notACharacter (String.ofList text)) rest)

/-- Reads a string or `null`. -/
def readOptionalString (s : List Char) : Except Stop (Option (List Char) × List Char) :=
  match skipSpace s with
  | 'n' :: rest => (readWord rest "ull".toList).map fun left => (none, left)
  | other => (readStringValue "a string" other).map fun read => (some read.1, read.2)

/-! ## Arrays -/

/-- What comes next in an array. -/
inductive Next where
  /-- The array has ended; the rest follows it. -/
  | closed (rest : List Char)
  /-- An item starts. -/
  | item (rest : List Char)

/-- Looks for the next item of an array : at the start of the array, or else after the
comma that follows the last item. -/
def nextItem (atStart : Bool) (s : List Char) : Except Stop Next :=
  match skipSpace s with
  | [] => .error (.on .endInArray [])
  | c :: rest =>
    if c = ']' then .ok (.closed rest)
    else if atStart then .ok (.item (c :: rest))
    else if c = ',' then
      match skipSpace rest with
      | [] => .error (.on .endInValue [])
      | d :: left =>
        if d = ']' then .error (.on .trailingComma (d :: left)) else .ok (.item (d :: left))
    else .error (.on .expectedItemEnd (c :: rest))

/-- Looks for the end of an array all of whose possible items have been read. -/
def readArrayEnd (s : List Char) : Except Stop (List Char) :=
  match skipSpace s with
  | [] => .error (.on .endInArray [])
  | c :: rest =>
    if c = ']' then .ok rest
    else if c = ',' then
      let left := skipSpace rest
      .error (.on (if left.head? = some ']' then .trailingComma else .trailingCharacters) left)
    else .error (.on .trailingCharacters (c :: rest))

theorem length_of_nextItem {atStart : Bool} {s rest : List Char}
    (h : nextItem atStart s = .ok (.item rest)) : rest.length ≤ s.length := by
  have hs := length_skipSpace_le s
  unfold nextItem at h
  split at h
  · cases h
  · next c after hskip =>
    rw [hskip, List.length_cons] at hs
    have hafter := length_skipSpace_le after
    split at h
    · cases h
    · split at h
      · cases h
        simp only [List.length_cons]
        omega
      · split at h
        · split at h
          · cases h
          · next d left hleft =>
            rw [hleft, List.length_cons] at hafter
            split at h
            · cases h
            · cases h
              simp only [List.length_cons]
              omega
        · cases h

theorem length_of_readStringValue {expected : String} {s text rest : List Char}
    (h : readStringValue expected s = .ok (text, rest)) : rest.length < s.length := by
  have hs := length_skipSpace_le s
  unfold readStringValue at h
  split at h
  · next after hskip =>
    rw [hskip, List.length_cons] at hs
    have := length_of_readString h
    omega
  · cases h

/-- Reads the strings of an array after its opening bracket, the first of them being
number `index`. A stop inside an item comes with the item's number. -/
def readStrings (index : Nat) (s : List Char) :
    Except (Option Nat × Stop) (List (List Char) × List Char) :=
  match _next : nextItem (index = 0) s with
  | .error stop => .error (none, stop)
  | .ok (.closed rest) => .ok ([], rest)
  | .ok (.item item) =>
    match _value : readStringValue "a string" item with
    | .error stop => .error (some index, stop)
    | .ok (text, after) =>
      match readStrings (index + 1) after with
      | .error failed => .error failed
      | .ok (texts, rest) => .ok (text :: texts, rest)
termination_by s.length
decreasing_by
  have := length_of_nextItem ‹_›
  have := length_of_readStringValue ‹_›
  omega

end NodeSchema.Json
