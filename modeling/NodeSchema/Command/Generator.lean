import NodeSchema.Command.Outline
import NodeSchema.Command.Report
import NodeSchema.Document
import NodeSchema.Header
import NodeSchema.Source

/-!
# The generator

A run first finds its settings : those of the settings file, which have to be usable by
themselves, or the standard ones, and then the values given with the command in their
place. With the settings it reads the schema. Only when all this has succeeded does it
write anything, to the file that the command names, whose directories it makes, or to
the standard output.
-/

namespace NodeSchema

/-- Why a run fails. -/
inductive GeneratorError where
  /-- The settings file is no use. -/
  | settingsFile (error : SettingsFileError)
  /-- The settings, with the values given in their place, cannot be used. -/
  | settings (problem : SettingsProblem)
  /-- The standard input cannot be read. -/
  | standardInput (cause : FileError)
  /-- The schema's file cannot be read. -/
  | schemaFile (path : String) (cause : FileError)
  /-- The schema cannot be read. -/
  | schema (label : String) (fault : Fault)
  /-- The directory of the output cannot be made. -/
  | outDirectory (path : String) (cause : FileError)
  /-- The output cannot be written. -/
  | outFile (path : String) (cause : FileError)
deriving DecidableEq

namespace GeneratorError

/-- The messages of an error, from what failed to its cause. -/
def chain : GeneratorError → List String
  | settingsFile error => error.chain
  | settings problem => ["invalid configuration", problem.message]
  | standardInput cause => ["failed to read schema from stdin", cause.message]
  | schemaFile path cause => ["failed to read schema file " ++ path, cause.message]
  | schema label fault => ["failed to parse " ++ label, fault.message]
  | outDirectory path cause => ["failed to create " ++ path, cause.message]
  | outFile path cause => ["failed to write " ++ path, cause.message]

/-- The line that reports an error. -/
def line (coloured : Bool) (error : GeneratorError) : String :=
  paint coloured "1;31" "error:" ++ " " ++ ": ".intercalate error.chain ++ "\n"

end GeneratorError

/-! ## Settings -/

/-- The settings with the values of options in their place. -/
def InputOptions.applyTo (options : InputOptions) (settings : Settings) : Settings :=
  { settings with
    separator := options.separator.getD settings.separator
    unionName := options.unionName.getD settings.unionName
    visitorName := options.visitorName.getD settings.visitorName }

/-- The settings with the values of the options of `cpp` in their place. -/
def HeaderOptions.applyTo (options : HeaderOptions) (settings : Settings) : Settings :=
  let settings := options.source.applyTo settings
  { settings with
    scope := options.scope.getD settings.scope
    guardName := options.guardName.or settings.guardName
    includes := settings.includes ++ options.includes }

namespace Command

/-- The settings with the values of a command's options in their place. -/
def applyTo (command : Command) (settings : Settings) : Settings :=
  match command with
  | cpp options => options.applyTo settings
  | schema source _ => source.applyTo settings
  | check source => source.applyTo settings

end Command

namespace InputOptions

/-- The settings before any value is put in their place. -/
def baseSettings (options : InputOptions) (t : FileTree) : Except GeneratorError Settings :=
  match options.config with
  | none => .ok .standard
  | some path =>
    match t.readSettings path with
    | .error error => .error (.settingsFile error)
    | .ok settings => .ok settings

/-- How messages name the schema. -/
def label (options : InputOptions) : String :=
  if options.input = "-" then "<stdin>" else options.input

/-- The text of the schema. -/
def sourceText (options : InputOptions) (around : Surroundings) :
    Except GeneratorError String :=
  if options.input = "-" then
    match decodeText around.stdin with
    | .error cause => .error (.standardInput cause)
    | .ok text => .ok text
  else
    match around.tree.readText options.input with
    | .error cause => .error (.schemaFile options.input cause)
    | .ok text => .ok text

end InputOptions

namespace Command

/-- The settings of a run. -/
def settings (command : Command) (t : FileTree) : Except GeneratorError Settings :=
  match command.source.baseSettings t with
  | .error error => .error error
  | .ok base =>
    let settings := command.applyTo base
    match settings.check with
    | .error problem => .error (.settings problem)
    | .ok () => .ok settings

/-- The settings and the schema of a run. -/
def prepare (command : Command) (around : Surroundings) :
    Except GeneratorError (Settings × Schema) :=
  match command.settings around.tree with
  | .error error => .error error
  | .ok settings =>
    match command.source.sourceText around with
    | .error error => .error error
    | .ok text =>
      match Schema.read settings text with
      | .error fault => .error (.schema command.source.label fault)
      | .ok nodes => .ok (settings, nodes)

/-- The text that a command gives for a schema. -/
def product (command : Command) (coloured : Bool) (settings : Settings) (nodes : Schema) :
    String :=
  match command with
  | cpp _ => nodes.header settings
  | schema _ _ => nodes.toJson.pretty ++ "\n"
  | check source =>
    paint coloured "1;32" "ok:" ++ " " ++ source.label ++ " (" ++ toString nodes.size
      ++ " node types)\n"

end Command

/-! ## Writing -/

/-- Writes a text to a file, whose directories are made if need be. -/
def FileTree.deliver (t : FileTree) (path text : String) :
    FileTree × Except GeneratorError Unit :=
  match t.makeDirectories (Path.parents path) with
  | (made, .error cause) =>
    (made, .error (.outDirectory ((Path.parents path).headD "") cause))
  | (made, .ok ()) =>
    match made.writeText path text with
    | .error cause => (made, .error (.outFile path cause))
    | .ok written => (written, .ok ())

namespace Invocation

/-- A note on the progress of a run. -/
def note (invocation : Invocation) (coloured : Bool) (text : String) : String :=
  if invocation.verbose then paint coloured "2" "note:" ++ " " ++ text ++ "\n" else ""

/-- The note on the schema that has been read. -/
def readNote (invocation : Invocation) (coloured : Bool) (schema : Schema) : String :=
  invocation.note coloured
    ("parsed " ++ toString schema.size ++ " node type(s) from "
      ++ invocation.command.source.label)

/-- The note on the file that has been written, which only `cpp` makes. -/
def writeNote (invocation : Invocation) (coloured : Bool) (path : String) : String :=
  match invocation.command with
  | .cpp _ => invocation.note coloured ("wrote " ++ path)
  | _ => ""

/-- Runs an invocation. -/
def run (invocation : Invocation) (around : Surroundings) : Report :=
  let command := invocation.command
  let coloured := around.coloured
  if command.isDryRun then ⟨0, "", invocation.text ++ "\n", around.tree⟩
  else
    match command.prepare around with
    | .error error => ⟨1, "", error.line coloured, around.tree⟩
    | .ok (settings, schema) =>
      let text := command.product coloured settings schema
      let noted := invocation.readNote coloured schema
      match command.out? with
      | none => ⟨0, text, noted, around.tree⟩
      | some path =>
        match around.tree.deliver path text with
        | (tree, .error error) => ⟨1, "", noted ++ error.line coloured, tree⟩
        | (tree, .ok ()) => ⟨0, "", noted ++ invocation.writeNote coloured path, tree⟩

end Invocation

/-! ## The program -/

namespace Generator

/-- The version, as it is shown. -/
def version : String :=
  "nodegen 0.1.0\n"

/-- How to use the generator. -/
def usage : String :=
  "Usage: nodegen [OPTIONS] <COMMAND>\n\n"
    ++ "Commands:\n"
    ++ "  cpp     write the C++ header of a schema\n"
    ++ "  schema  write the schema as JSON\n"
    ++ "  check   read the schema and report problems only\n\n"
    ++ "Options of every command:\n"
    ++ "  -i, --input <INPUT>            schema file, or '-' for stdin\n"
    ++ "      --config <CONFIG>          JSON settings file\n"
    ++ "      --separator <SEPARATOR>    character between a node and its fields\n"
    ++ "      --union-name <NAME>        name of the union\n"
    ++ "      --visitor-name <NAME>      name of the visitor\n"
    ++ "  -v, --verbose                  note the progress\n\n"
    ++ "Options of cpp:\n"
    ++ "      --namespace <NAMESPACE>    enclosing namespace\n"
    ++ "      --include-guard <NAME>     include guard\n"
    ++ "      --include <HEADER>         further header, repeatable\n"
    ++ "  -o, --out <FILE>               output file (also of schema)\n"
    ++ "      --no-op                    show the invocation only\n"

/-- Runs the generator with arguments. -/
def run (arguments : List String) (around : Surroundings) : Report :=
  match Invocation.read arguments with
  | .error interruption => interruption.report usage version around.tree
  | .ok invocation => invocation.run around

end Generator

end NodeSchema
