import NodeSchema.Text.Blank
import NodeSchema.Text.Cut
import NodeSchema.Text.Quoted
import NodeSchema.Word

/-!
# Settings of the generator

The names that a header uses besides those of its nodes, the headers it includes, and
the character that divides a schema line. `Settings.check` says which settings can be
used : the separator must not be able to stand in a name, a type or a list of fields,
and each name must be one that the header can declare.

The guard macro is derived from the enclosing namespace unless it is given
(`Settings.guard`).
-/

namespace NodeSchema

/-- The template parameter for the result of a visitor. -/
def resultParam : String := "R"

/-- The function template that forwards a union value to a visitor. -/
def dispatchName : String := "dispatch"

/-- The choices that a schema and its header are read and written with. -/
structure Settings where
  /-- Divides the name of a node from its fields. -/
  separator : Char
  /-- The enclosing namespace, divided by `::`; empty for the global one. -/
  scope : String
  /-- The alias of the union over all nodes. -/
  unionName : String
  /-- The class template of visitors. -/
  visitorName : String
  /-- The guard macro; derived from the namespace if absent. -/
  guardName : Option String
  /-- Further headers to include; one in quotation marks is a local header. -/
  includes : List String
deriving DecidableEq

/-- What makes settings unusable. -/
inductive SettingsProblem where
  /-- The value under `key` is not a name that the header can declare. -/
  | invalidName (key value : String)
  /-- The separator can stand in a name, a type or a list of fields. -/
  | invalidSeparator (separator : Char)
  /-- The text does not name a header. -/
  | invalidInclude (header : String)
  /-- Union and visitor have one name. -/
  | nameClash (name : String)
deriving DecidableEq

/-- The wording of a problem. -/
def SettingsProblem.message : SettingsProblem → String
  | .invalidName key value =>
    "`" ++ key ++ "` must be a plain identifier that is not a C++ keyword or generated name, got "
      ++ Text.quoted value
  | .invalidSeparator separator =>
    Text.quotedChar separator
      ++ " cannot be used as a separator (it may appear inside names, types or field lists)"
  | .invalidInclude header => "invalid include " ++ Text.quoted header
  | .nameClash name => "`union_name` and `visitor_name` are both " ++ Text.quoted name

namespace Settings

/-- The settings that hold where nothing else is said. -/
def standard : Settings where
  separator := '|'
  scope := "ast"
  unionName := "expression"
  visitorName := "visitor"
  guardName := none
  includes := []

/-! ## Derived names -/

/-- The pieces of the namespace between its `::`, empty ones included. -/
def scopePieces (s : Settings) : List String :=
  (Text.cutAtColons s.scope.toList).map String.ofList

/-- The nested namespaces, from the outside in. -/
def scopeSegments (s : Settings) : List String :=
  s.scopePieces.filter fun piece => !piece.isEmpty

/-- The text with its ASCII letters in upper case. -/
def upperCase (s : String) : String :=
  String.ofList (s.toList.map Char.toUpper)

/-- The guard macro : the one that is given, or the namespace in upper case with `_` for
`::`, or `AST` if there is none, and then `_HPP`. -/
def guard (s : Settings) : String :=
  match s.guardName with
  | some name => name
  | none =>
    let stem := "_".intercalate (s.scopeSegments.map upperCase)
    (if stem.isEmpty then "AST" else stem) ++ "_HPP"

/-- The names that the header declares besides those of the nodes. -/
def generatedNames (s : Settings) : List String :=
  [s.unionName, s.visitorName, resultParam, dispatchName]

/-! ## Which settings can be used -/

/-- A character that keeps a schema line unambiguous as its separator. -/
def isSeparator (c : Char) : Bool :=
  !(c = ',' || Text.isBlank c || isTypeChar c)

/-- A name that can be given to the union or to the visitor. -/
def isDeclarable (name : String) : Bool :=
  isIdentifier name && !isReserved name && !(name = resultParam || name = dispatchName)

/-- A namespace : empty, or non-reserved identifiers divided by `::`. -/
def isScope (s : Settings) : Bool :=
  s.scope.isEmpty || s.scopePieces.all fun piece => isIdentifier piece && !isReserved piece

/-- A header to include : not blank, on one line, without angle brackets, and if it
starts with a quotation mark, between two of them with something inside. -/
def isHeader (header : String) : Bool :=
  let text := header.toList
  !(Text.trim text).isEmpty &&
    !(text.any fun c => c = '\n' || c = '\r' || c = '<' || c = '>') &&
    !(text.head? = some '"' && (header.utf8ByteSize < 3 || text.getLast? != some '"'))

/-- Finds the first problem : the separator's, then those of union, visitor, their
clash, namespace, guard and included headers. -/
def check (s : Settings) : Except SettingsProblem Unit :=
  if !isSeparator s.separator then .error (.invalidSeparator s.separator)
  else if !isDeclarable s.unionName then .error (.invalidName "union_name" s.unionName)
  else if !isDeclarable s.visitorName then .error (.invalidName "visitor_name" s.visitorName)
  else if s.unionName = s.visitorName then .error (.nameClash s.unionName)
  else if !s.isScope then .error (.invalidName "namespace" s.scope)
  else
    match s.guardName.filter fun name => !isIdentifier name with
    | some name => .error (.invalidName "include_guard" name)
    | none =>
      match s.includes.find? fun header => !isHeader header with
      | some header => .error (.invalidInclude header)
      | none => .ok ()

end Settings

end NodeSchema
