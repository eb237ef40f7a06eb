import NodeSchema.Text.Lines
import NodeSchema.Text.Quoted

/-!
# The first difference of two texts

Two texts are compared line by line. The first line that is not the same in both is
reported with its number; where one of the texts has no line left, a marker stands for
it.
-/

namespace NodeSchema

/-- The first line at which two texts differ. -/
structure Difference where
  /-- The number of the line, counted from one. -/
  line : Nat
  /-- The line of the text that was expected. -/
  expected : String
  /-- The line of the text that there is. -/
  actual : String
deriving DecidableEq

namespace Difference

/-- Stands for the line of a text that has no line left. -/
def endMarker : String := "<eof>"

/-- The first line of some lines. -/
def firstLine (lines : List (List Char)) : String :=
  match lines with
  | [] => endMarker
  | line :: _ => String.ofList line

/-- Compares lines, the first of which have number `line`. -/
def ofLines (line : Nat) : List (List Char) → List (List Char) → Difference
  | e :: es, a :: as =>
    if e = a then ofLines (line + 1) es as
    else ⟨line, firstLine (e :: es), firstLine (a :: as)⟩
  | es, as => ⟨line, firstLine es, firstLine as⟩

/-- The first difference of two texts. -/
def ofTexts (expected actual : String) : Difference :=
  ofLines 1 (Text.lines expected.toList) (Text.lines actual.toList)

/-- The wording of a difference. -/
def message (d : Difference) : String :=
  "line " ++ toString d.line ++ ": expected " ++ Text.quoted d.expected ++ ", got "
    ++ Text.quoted d.actual

end Difference

end NodeSchema
