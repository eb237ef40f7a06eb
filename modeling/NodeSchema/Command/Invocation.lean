import NodeSchema.Command.Arguments

/-!
# Invocations of the generator

The generator has three commands : `cpp` writes the header of a schema, `schema` writes
the schema as JSON, and `check` only reads it. All three take the schema to read and
settings for it (`InputOptions`).
-/

namespace NodeSchema

/-- What every command takes. -/
structure InputOptions where
  /-- The path of the schema; a lone dash is the standard input. -/
  input : String
  /-- The path of a settings file. -/
  config : Option String
  /-- Stands for the separator of the settings. -/
  separator : Option Char
  /-- Stands for the union's name. -/
  unionName : Option String
  /-- Stands for the visitor's name. -/
  visitorName : Option String
deriving DecidableEq

/-- What the command `cpp` takes. -/
structure HeaderOptions where
  /-- What every command takes. -/
  source : InputOptions
  /-- Stands for the namespace of the settings. -/
  scope : Option String
  /-- Stands for the guard macro. -/
  guardName : Option String
  /-- Further headers, after those of the settings. -/
  includes : List String
  /-- The path of the header; the standard output if absent. -/
  out : Option String
  /-- Show the invocation and do nothing. -/
  dryRun : Bool
deriving DecidableEq

/-- A command with its options. -/
inductive Command where
  /-- Write the header of a schema. -/
  | cpp (options : HeaderOptions)
  /-- Write the schema as JSON. -/
  | schema (source : InputOptions) (out : Option String)
  /-- Read the schema. -/
  | check (source : InputOptions)
deriving DecidableEq

/-- A command, and whether its progress is noted. -/
structure Invocation where
  /-- Whether progress is noted. -/
  verbose : Bool
  /-- The command. -/
  command : Command
deriving DecidableEq

namespace Command

/-- What every command takes. -/
def source : Command → InputOptions
  | cpp options => options.source
  | schema source _ => source
  | check source => source

/-- The path of the file that a command writes. -/
def out? : Command → Option String
  | cpp options => options.out
  | schema _ out => out
  | check _ => none

/-- Whether a command is only shown. -/
def isDryRun : Command → Bool
  | cpp options => options.dryRun
  | _ => false

end Command

namespace Invocation

/-- Whether the schema is on the standard input. -/
def readsStandardInput (invocation : Invocation) : Bool :=
  invocation.command.source.input = "-" && !invocation.command.isDryRun

/-- The paths that an invocation names. -/
def paths (invocation : Invocation) : List String :=
  let source := invocation.command.source
  [source.input] ++ source.config.toList ++ invocation.command.out?.toList

/-! ## Options -/

/-- The options of the generator. -/
inductive Key where
  | verbose
  | help
  | version
  | input
  | config
  | separator
  | unionName
  | visitorName
  | scope
  | guardName
  | include
  | out
  | dryRun
deriving DecidableEq

/-- An option that takes any text. -/
def textOption (key : Key) (long : String) (short : Option Char) : OptionSpec Key :=
  ⟨key, long, short, .value false fun _ => true⟩

/-- An option that takes a path, which is not empty. -/
def pathOption (key : Key) (long : String) (short : Option Char) : OptionSpec Key :=
  ⟨key, long, short, .value false fun value => !value.isEmpty⟩

/-- The options that stand before the command or after it. -/
def commonOptions : List (OptionSpec Key) :=
  [⟨.verbose, "verbose", some 'v', .flag⟩, ⟨.help, "help", some 'h', .stop .help⟩]

/-- The options before the command. -/
def leadingOptions : List (OptionSpec Key) :=
  commonOptions ++ [⟨.version, "version", some 'V', .stop .version⟩]

/-- The options of every command. -/
def inputOptions : List (OptionSpec Key) :=
  commonOptions ++
    [textOption .input "input" (some 'i'),
     pathOption .config "config" none,
     ⟨.separator, "separator", none, .value false fun value => value.length = 1⟩,
     textOption .unionName "union-name" none,
     textOption .visitorName "visitor-name" none]

/-- The option that names the file to write. -/
def outOption : OptionSpec Key :=
  pathOption .out "out" (some 'o')

/-- The options of the command `cpp`. -/
def headerOptions : List (OptionSpec Key) :=
  inputOptions ++
    [textOption .scope "namespace" none,
     textOption .guardName "include-guard" none,
     ⟨.include, "include", none, .value true fun _ => true⟩,
     outOption,
     ⟨.dryRun, "no-op", none, .flag⟩]

/-! ## Reading invocations -/

/-- What every command takes, from the options given. The schema to read must be among
them. -/
def readInput (given : Given Key) : Except Interruption InputOptions :=
  match Arguments.value? given .input with
  | none => .error .usage
  | some input =>
    .ok
      { input
        config := Arguments.value? given .config
        separator := (Arguments.value? given .separator).bind fun value => value.toList.head?
        unionName := Arguments.value? given .unionName
        visitorName := Arguments.value? given .visitorName }

/-- The command of the given name, from the options given. -/
def readCommand (name : String) (given : Given Key) : Except Interruption Command :=
  match readInput given with
  | .error interruption => .error interruption
  | .ok source =>
    match name with
    | "cpp" =>
      .ok <| .cpp
        { source
          scope := Arguments.value? given .scope
          guardName := Arguments.value? given .guardName
          includes := Arguments.values given .include
          out := Arguments.value? given .out
          dryRun := Arguments.has given .dryRun }
    | "schema" => .ok (.schema source (Arguments.value? given .out))
    | _ => .ok (.check source)

/-- The options that a command takes, by its name. -/
def tableOf? : String → Option (List (OptionSpec Key))
  | "cpp" => some headerOptions
  | "schema" => some (inputOptions ++ [outOption])
  | "check" => some inputOptions
  | _ => none

/-- What the word `help` asks for, with the words after it : the help, of itself or of
one command. -/
def readHelp : List String → Interruption
  | [] => .help
  | [name] => if name = "help" || (tableOf? name).isSome then .help else .usage
  | _ => .usage

/-- Reads an invocation. Options may be followed by two dashes, but there are no further
words behind the command's name. -/
def read (arguments : List String) : Except Interruption Invocation :=
  match Arguments.readOptions leadingOptions [] arguments with
  | .error interruption => .error interruption
  | .ok (_, []) => .error .usage
  | .ok (leading, name :: rest) =>
    if name = "help" then .error (readHelp rest)
    else
      match tableOf? name with
      | none => .error .usage
      | some table =>
        match Arguments.readOptions table [] rest with
        | .error interruption => .error interruption
        | .ok (given, left) =>
          if left = [] || left = ["--"] then
            (readCommand name given).map fun command =>
              { verbose := Arguments.has leading .verbose || Arguments.has given .verbose
                command }
          else .error .usage

end Invocation

end NodeSchema
