import NodeSchema.Schema
import NodeSchema.Settings

/-!
# The header

The C++ header that declares the nodes of a schema, as a list of lines. Its sections
stand in a fixed order : the guard and the included headers, the forward declarations,
the union, the visitor, one class for each node, the function that forwards a union
value to a visitor, and the end of the guard. Each section goes through the nodes in
the order of the schema.

A member whose type is the union or a node of the schema is held by a uniquely owning
pointer, every other member by value (`memberType`).
-/

namespace NodeSchema.Header

/-- The included headers that every generated header needs. -/
def standardIncludes : List String :=
  ["memory", "utility", "variant"]

/-- The directive that includes a header : a name in quotation marks stands as it is,
any other goes between angle brackets. -/
def includeLine (header : String) : String :=
  if header.toList.head? = some '"' then "#include " ++ header
  else "#include <" ++ header ++ ">"

/-- The enclosing namespace, if there is one. -/
def scope? (settings : Settings) : Option String :=
  match settings.scopeSegments with
  | [] => none
  | segments => some ("::".intercalate segments)

/-- The start of the header, up to the opening of the namespace. -/
def preamble (settings : Settings) : List String :=
  ["// Generated by nodegen. Do not edit.",
   "#ifndef " ++ settings.guard,
   "#define " ++ settings.guard,
   ""]
    ++ standardIncludes.map (fun header => "#include <" ++ header ++ ">")
    ++ settings.includes.map includeLine
    ++ [""]
    ++ match scope? settings with
      | none => []
      | some scope => ["namespace " ++ scope ++ " \x7b", ""]

/-- One forward declaration for each node. -/
def forwardDeclarations (schema : Schema) : List String :=
  schema.names.map (fun name => "class " ++ name ++ ";")
    ++ if schema.isEmpty then [] else [""]

/-- The alternatives of the union. A union without alternatives would be ill-formed, so
the empty schema has one that stands for no value. -/
def alternatives (schema : Schema) : String :=
  if schema.isEmpty then "std::monostate" else ", ".intercalate schema.names

/-- The alias of the union over all nodes. -/
def unionAlias (settings : Settings) (schema : Schema) : List String :=
  ["using " ++ settings.unionName ++ " = std::variant<" ++ alternatives schema ++ ">;", ""]

/-- The visitor's member function for a node. -/
def visitLine (name : String) : String :=
  "    virtual " ++ resultParam ++ " visit(const " ++ name ++ "&) \x7b return " ++ resultParam
    ++ "(); \x7d"

/-- The visitor class template. -/
def visitor (settings : Settings) (schema : Schema) : List String :=
  ["template <typename " ++ resultParam ++ ">",
   "class " ++ settings.visitorName ++ " \x7b",
   "public:",
   "    virtual ~" ++ settings.visitorName ++ "() = default;"]
    ++ (if schema.isEmpty then [] else [""])
    ++ schema.names.map visitLine
    ++ ["\x7d;", ""]

/-- The type of a member in the header. -/
def memberType (settings : Settings) (schema : Schema) (field : Field) : String :=
  if field.type = settings.unionName || schema.contains field.type then
    "std::unique_ptr<" ++ field.type ++ ">"
  else field.type

/-- A constructor parameter : type and name. -/
def parameter (settings : Settings) (schema : Schema) (field : Field) : String :=
  memberType settings schema field ++ " " ++ field.name

/-- The initializer that moves a parameter into its member. -/
def initializer (field : Field) : String :=
  field.name ++ "(std::move(" ++ field.name ++ "))"

/-- The constructor and the members of a node. A constructor with one parameter is
explicit, and a node without fields has the default constructor only. -/
def classBody (settings : Settings) (schema : Schema) (node : Node) : List String :=
  match node.fields with
  | [] => ["    " ++ node.name ++ "() = default;"]
  | fields =>
    let explicitly := if fields.length = 1 then "explicit " else ""
    let parameters := ", ".intercalate (fields.map (parameter settings schema))
    let initializers := ", ".intercalate (fields.map initializer)
    ["    " ++ explicitly ++ node.name ++ "(" ++ parameters ++ ")",
     "        : " ++ initializers ++ " \x7b\x7d",
     ""]
      ++ fields.map fun field => "    " ++ parameter settings schema field ++ ";"

/-- The class of a node. -/
def nodeClass (settings : Settings) (schema : Schema) (node : Node) : List String :=
  ["class " ++ node.name ++ " \x7b", "public:"]
    ++ classBody settings schema node
    ++ ["\x7d;", ""]

/-- The function template that forwards a union value to a visitor. -/
def dispatch (settings : Settings) (schema : Schema) : List String :=
  if schema.isEmpty then []
  else
    ["template <typename " ++ resultParam ++ ">",
     resultParam ++ " " ++ dispatchName ++ "(" ++ settings.visitorName ++ "<" ++ resultParam
       ++ ">& v, const " ++ settings.unionName ++ "& value) \x7b",
     "    return std::visit([&v](const auto& alternative) -> " ++ resultParam
       ++ " \x7b return v.visit(alternative); \x7d, value);",
     "\x7d",
     ""]

/-- The end of the header, from the closing of the namespace on. -/
def trailer (settings : Settings) : List String :=
  (match scope? settings with
    | none => []
    | some scope => ["\x7d // namespace " ++ scope, ""])
    ++ ["#endif // " ++ settings.guard]

/-- The lines of the header. -/
def lines (settings : Settings) (schema : Schema) : List String :=
  preamble settings
    ++ forwardDeclarations schema
    ++ unionAlias settings schema
    ++ visitor settings schema
    ++ schema.nodes.flatMap (nodeClass settings schema)
    ++ dispatch settings schema
    ++ trailer settings

end NodeSchema.Header

namespace NodeSchema

/-! ## Writing headers -/

/-- A text under construction, to which headers are added line by line. -/
structure HeaderWriter where
  /-- The settings that the headers are written with. -/
  settings : Settings
  /-- What has been written. -/
  text : String

namespace HeaderWriter

/-- A writer that has written nothing. -/
def start (settings : Settings) : HeaderWriter :=
  ⟨settings, ""⟩

/-- Adds a line. -/
def line (w : HeaderWriter) (content : String) : HeaderWriter :=
  { w with text := w.text ++ content ++ "\n" }

/-- Adds the header of a schema. -/
def add (w : HeaderWriter) (schema : Schema) : HeaderWriter :=
  (Header.lines w.settings schema).foldl line w

end HeaderWriter

/-- The text of the header of a schema. -/
def Schema.header (schema : Schema) (settings : Settings) : String :=
  ((HeaderWriter.start settings).add schema).text

end NodeSchema
