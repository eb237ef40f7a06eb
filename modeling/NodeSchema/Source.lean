import NodeSchema.Fault
import NodeSchema.Schema
import NodeSchema.Settings
import NodeSchema.Text.Lines

/-!
# Reading a schema

A schema text defines one node on each line that is not blank : the node's name, and
after the separator, if there is one, its fields divided by commas. A field is a type
and a name with white space between them.

`Schema.read` goes through the lines from the top and stops at the first one that
cannot be read (`readNode`) or whose name is taken. Within a line the fields are first
looked at one by one (`collectFields`), each against those before it, and then all
against all for a field that has the name of a type (`shadowing`).
-/

namespace NodeSchema

/-! ## Fields -/

/-- Reads one field of `node`, whose `earlier` fields have been read. -/
def readField (node : String) (earlier : List Field) (piece : List Char) :
    Except Reason Field :=
  match Text.words piece with
  | [type, name] =>
    let type := String.ofList type
    let name := String.ofList name
    if !isIdentifier name || isReserved name then .error (.invalidFieldName name)
    else if !isTypeExpr type then .error (.invalidFieldType name type)
    else if earlier.any fun field => field.name = name then .error (.duplicateField node name)
    else if name = node then .error (.fieldNamedAfterNode name)
    else .ok ⟨type, name⟩
  | words => .error (.malformedField (String.ofList (Text.trim piece)) words.length)

/-- Reads the fields of `node` piece by piece, after the `earlier` ones. -/
def collectFields (node : String) (earlier : List Field) :
    List (List Char) → Except Reason (List Field)
  | [] => .ok earlier
  | piece :: rest =>
    match readField node earlier piece with
    | .error reason => .error reason
    | .ok field => collectFields node (earlier ++ [field]) rest

/-- The first of the fields with a type in which `name` is a word. -/
def firstUse (fields : List Field) (name : String) : Option Field :=
  fields.find? fun field => (typeWords field.type).contains name

/-- The first field that has the name of a word of a type, and the first field with such
a type. -/
def shadowing (fields : List Field) : Option (Field × Field) :=
  fields.findSome? fun field => (firstUse fields field.name).map fun other => (field, other)

/-- Reads the text after the separator : the fields of `node`. -/
def readFields (node : String) (text : List Char) : Except Reason (List Field) :=
  match collectFields node [] (text.splitOn ',') with
  | .error reason => .error reason
  | .ok fields =>
    match shadowing fields with
    | some (field, other) => .error (.fieldShadowsType field.name other.type)
    | none => .ok fields

/-! ## Lines -/

/-- Reads the line with number `line`, which is not blank. -/
def readNode (settings : Settings) (line : Nat) (text : List Char) : Except Reason Node :=
  let cut := Text.cutAt settings.separator text
  let name := String.ofList (Text.trim cut.1)
  if !isIdentifier name then .error (.malformedName name)
  else if isReserved name || settings.generatedNames.contains name then
    .error (.reservedName name)
  else
    match cut.2 with
    | none => .ok ⟨name, [], line⟩
    | some rest =>
      match readFields name rest with
      | .error reason => .error reason
      | .ok fields => .ok ⟨name, fields, line⟩

/-- Reads one more line into a schema. A blank line changes nothing. -/
def readLine (settings : Settings) (schema : Schema) (line : Nat) (text : List Char) :
    Except Fault Schema :=
  let trimmed := Text.trim text
  if trimmed.isEmpty then .ok schema
  else
    match readNode settings line text with
    | .error reason => .error ⟨line, String.ofList trimmed, reason⟩
    | .ok node =>
      match schema.push node with
      | .ok larger => .ok larger
      | .error taken =>
        let firstLine := ((schema.get? taken.name).map Node.line).getD 0
        .error ⟨line, String.ofList trimmed, .duplicateNode taken.name firstLine⟩

/-- Reads lines into a schema, the first of them being number `line`. -/
def readLines (settings : Settings) (schema : Schema) (line : Nat) :
    List (List Char) → Except Fault Schema
  | [] => .ok schema
  | text :: rest =>
    match readLine settings schema line text with
    | .error fault => .error fault
    | .ok larger => readLines settings larger (line + 1) rest

/-- Reads a schema text. -/
def Schema.read (settings : Settings) (source : String) : Except Fault Schema :=
  readLines settings Schema.empty 1 (Text.lines source.toList)

end NodeSchema
