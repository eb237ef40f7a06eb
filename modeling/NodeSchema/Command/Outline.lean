import NodeSchema.Command.Invocation
import NodeSchema.Text.Quoted

/-!
# Invocations as an outline

The form in which an invocation is shown for inspection : each part on a line of its own
with a comma behind it, indented by four spaces for each level.
-/

namespace NodeSchema

/-- Something to be shown with its parts. -/
inductive Outline where
  /-- A text on one line. -/
  | leaf (text : String)
  /-- A name with named parts in braces. -/
  | record (name : String) (parts : List (String × Outline))
  /-- A name with one part in parentheses. -/
  | wrapped (name : String) (part : Outline)
  /-- Texts in brackets. -/
  | listing (items : List String)

namespace Outline

/-- The start of a line at a level of nesting. -/
def lineStart (level : Nat) : String :=
  "\n" ++ String.ofList (List.replicate (4 * level) ' ')

mutual

/-- The text of an outline that starts at a level of nesting. -/
def textAt (level : Nat) : Outline → String
  | .leaf text => text
  | .record name parts =>
    name ++ " \x7b" ++ partsAt (level + 1) parts ++ lineStart level ++ "\x7d"
  | .wrapped name part =>
    name ++ "(" ++ lineStart (level + 1) ++ textAt (level + 1) part ++ ","
      ++ lineStart level ++ ")"
  | .listing items =>
    if items.isEmpty then "[]"
    else
      "[" ++ String.join (items.map fun item => lineStart (level + 1) ++ item ++ ",")
        ++ lineStart level ++ "]"

/-- The texts of named parts, each on a new line at a level of nesting. -/
def partsAt (level : Nat) : List (String × Outline) → String
  | [] => ""
  | (name, part) :: rest =>
    lineStart level ++ name ++ ": " ++ textAt level part ++ "," ++ partsAt level rest

end

/-- A truth value. -/
def ofBool (b : Bool) : Outline :=
  .leaf (if b then "true" else "false")

/-- A value that may be absent. -/
def ofOption : Option String → Outline
  | none => .leaf "None"
  | some text => .wrapped "Some" (.leaf text)

/-- A text that may be absent. -/
def ofText (text : Option String) : Outline :=
  ofOption (text.map Text.quoted)

end Outline

/-- What every command takes. -/
def InputOptions.outline (options : InputOptions) : Outline :=
  .record "InputSettings"
    [("input", .leaf (Text.quoted options.input)),
     ("config", .ofText options.config),
     ("separator", .ofOption (options.separator.map Text.quotedChar)),
     ("union_name", .ofText options.unionName),
     ("visitor_name", .ofText options.visitorName)]

/-- A command with its options. -/
def Command.outline : Command → Outline
  | .cpp options =>
    .wrapped "Cpp" <| .record "CppOut"
      [("input_settings", options.source.outline),
       ("namespace", .ofText options.scope),
       ("include_guard", .ofText options.guardName),
       ("includes", .listing (options.includes.map Text.quoted)),
       ("out", .ofText options.out),
       ("no_op", .ofBool options.dryRun)]
  | .schema source out =>
    .wrapped "Schema" <| .record "SchemaOut"
      [("input_settings", source.outline), ("out", .ofText out)]
  | .check source =>
    .wrapped "Check" <| .record "CheckOut" [("input_settings", source.outline)]

/-- The text that shows an invocation. -/
def Invocation.text (invocation : Invocation) : String :=
  Outline.textAt 0 <| .record "CommandLineInterface"
    [("verbose", .ofBool invocation.verbose), ("cmd", invocation.command.outline)]

end NodeSchema
