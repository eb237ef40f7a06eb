import NodeSchema.Json
import NodeSchema.Schema
import NodeSchema.Settings

/-!
# Schemas and settings as JSON

A schema is an object with its nodes under their names, in its order. The line of a
node is not part of it. Settings are an object with all six of their keys.
-/

namespace NodeSchema

/-- A field : its name and its type. -/
def Field.toJson (field : Field) : Json :=
  .obj [("name", .str field.name), ("type", .str field.type)]

/-- A node : its name and its fields. -/
def Node.toJson (node : Node) : Json :=
  .obj [("name", .str node.name), ("fields", .arr (node.fields.map Field.toJson))]

/-- A schema : its nodes under their names. -/
def Schema.toJson (schema : Schema) : Json :=
  .obj (schema.entries.map fun entry => (entry.1, entry.2.toJson))

/-- Settings : every key with its value. -/
def Settings.toJson (settings : Settings) : Json :=
  .obj
    [("separator", .str (String.singleton settings.separator)),
     ("namespace", .str settings.scope),
     ("union_name", .str settings.unionName),
     ("visitor_name", .str settings.visitorName),
     ("include_guard",
       match settings.guardName with
       | none => .null
       | some name => .str name),
     ("includes", .arr (settings.includes.map Json.str))]

end NodeSchema
