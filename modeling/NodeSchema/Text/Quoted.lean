import NodeSchema.Text.Unprintable

/-!
# Quoted text

The form in which a message shows a text that may hold anything : between quotation
marks, with every character that would end the text, break the line or not be seen
written as an escape. A quoted text therefore never holds a line feed.
-/

namespace NodeSchema.Text

/-- The digits of a number in base sixteen, in lower case and without leading zeros. -/
def hexDigits (n : Nat) : List Char :=
  Nat.toDigits 16 n

/-- A character as it stands between two marks `mark` : the mark and the backslash follow
a backslash, the usual control characters have their letter, and any other character
without a visible form is shown by its code point. -/
def escaped (mark : Char) (c : Char) : List Char :=
  if c = '\x00' then ['\\', '0']
  else if c = '\t' then ['\\', 't']
  else if c = '\n' then ['\\', 'n']
  else if c = '\r' then ['\\', 'r']
  else if c = mark || c = '\\' then ['\\', c]
  else if isUnprintable c then ['\\', 'u', '{'] ++ hexDigits c.toNat ++ ['}']
  else [c]

/-- A text between double quotation marks. -/
def quoted (s : String) : String :=
  String.ofList ('"' :: s.toList.flatMap (escaped '"') ++ ['"'])

/-- A character between single quotation marks. -/
def quotedChar (c : Char) : String :=
  String.ofList ('\x27' :: escaped '\x27' c ++ ['\x27'])

end NodeSchema.Text
