import NodeSchema.Text.Quoted

/-!
# Faults of a schema text

What can be wrong with a line (`Reason`), and the report that names the line
(`Fault`). Text that has not been checked is quoted in a message, so that a message
takes two lines whatever the schema says : what is wrong, and the line itself.
-/

namespace NodeSchema

/-- What is wrong with a schema line. -/
inductive Reason where
  /-- The text before the fields is not an identifier. -/
  | malformedName (name : String)
  /-- The header uses the name itself, or cannot use it. -/
  | reservedName (name : String)
  /-- A field is not made of two words; `words` is their number. -/
  | malformedField (descriptor : String) (words : Nat)
  /-- The name of a field is not an identifier, or a reserved word. -/
  | invalidFieldName (name : String)
  /-- The type of a field is not one that a type can be written as. -/
  | invalidFieldType (field type : String)
  /-- An earlier field of the node has the name. -/
  | duplicateField (node field : String)
  /-- A field has the name of its node. -/
  | fieldNamedAfterNode (name : String)
  /-- A field has the name of a word of a type of its node. -/
  | fieldShadowsType (field type : String)
  /-- An earlier line defines a node of the name. -/
  | duplicateNode (name : String) (firstLine : Nat)
deriving DecidableEq

namespace Reason

/-- The fixed name of a reason, for programs to read. -/
def code : Reason → String
  | malformedName _ => "MalformedName"
  | reservedName _ => "ReservedName"
  | malformedField _ _ => "MalformedFieldDescriptor"
  | invalidFieldName _ => "InvalidFieldName"
  | invalidFieldType _ _ => "InvalidFieldType"
  | duplicateField _ _ => "DuplicateFieldName"
  | fieldNamedAfterNode _ => "FieldNamedAfterNode"
  | fieldShadowsType _ _ => "FieldShadowsType"
  | duplicateNode _ _ => "DuplicateNodeName"

/-- The wording of a reason. -/
def message : Reason → String
  | malformedName name =>
    "malformed node name " ++ Text.quoted name ++ ", expected an identifier"
  | reservedName name => "node name `" ++ name ++ "` is reserved in the generated header"
  | malformedField descriptor words =>
    "malformed field descriptor " ++ Text.quoted descriptor
      ++ ", expected `<type> <name>` but found " ++ toString words ++ " token(s)"
  | invalidFieldName name =>
    "invalid field name " ++ Text.quoted name
      ++ ", expected an identifier that is not a C++ keyword"
  | invalidFieldType field type =>
    "invalid type " ++ Text.quoted type ++ " for field `" ++ field
      ++ "`, expected an identifier optionally using `<`, `>` and `::`"
  | duplicateField node field =>
    "field `" ++ field ++ "` appears more than once in node `" ++ node ++ "`"
  | fieldNamedAfterNode name => "field `" ++ name ++ "` has the same name as its node"
  | fieldShadowsType field type =>
    "field `" ++ field ++ "` has the same name as a type used in its node (`" ++ type ++ "`)"
  | duplicateNode name firstLine =>
    "duplicate node name `" ++ name ++ "` (first defined on line " ++ toString firstLine ++ ")"

end Reason

/-- A line that is not a node definition, with the reason. -/
structure Fault where
  /-- The number of the line, counted from one. -/
  line : Nat
  /-- The line without white space at its ends. -/
  text : String
  /-- What is wrong with it. -/
  reason : Reason
deriving DecidableEq

/-- The report of a fault : the line's number and the reason, and below them the line. -/
def Fault.message (f : Fault) : String :=
  "line " ++ toString f.line ++ ": " ++ f.reason.message ++ "\n    " ++ toString f.line
    ++ " | " ++ f.text

end NodeSchema
