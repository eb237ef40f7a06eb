import NodeSchema.Command.Report
import NodeSchema.FileTree.Pattern
import NodeSchema.Fixture.Difference
import NodeSchema.Header
import NodeSchema.Json
import NodeSchema.Source

/-!
# Fixtures

A fixture is a schema file with its expected result beside it : the header in a file
with the extension `hpp`, or, if the schema has a fault, the fault's code in one with
the extension `err`. A file with the extension `json` holds the settings.

The runner goes through the fixtures of a directory in the order of their paths. It
compares each result with the expected one, or, when it is told to bless, makes it the
expected one. A fixture that cannot be read or whose settings are no use ends the run.
-/

namespace NodeSchema.Fixture

/-! ## One fixture -/

/-- What became of a fixture. -/
inductive Verdict where
  /-- The result is the expected one. -/
  | pass
  /-- The result has been made the expected one. -/
  | blessed
  /-- The result differs from the expected one. -/
  | differs (difference : Difference)
  /-- The file with the expected result cannot be read. -/
  | missing (path : String)
deriving DecidableEq

/-- Whether a fixture has failed. -/
def Verdict.isFailure : Verdict → Bool
  | .pass => false
  | .blessed => false
  | .differs _ => true
  | .missing _ => true

/-- The verdict in a report for programs. -/
def Verdict.status : Verdict → String
  | .pass => "pass"
  | .blessed => "blessed"
  | .differs _ => "fail"
  | .missing _ => "fail"

/-- What is wrong with a fixture that has failed. -/
def Verdict.detail? : Verdict → Option String
  | .pass => none
  | .blessed => none
  | .differs difference => some difference.message
  | .missing path => some ("missing " ++ path)

/-- A fixture with what became of it. -/
structure Outcome where
  /-- The name of the fixture. -/
  name : String
  /-- What became of it. -/
  verdict : Verdict
deriving DecidableEq

/-- Why a run ends early. -/
inductive RunError where
  /-- The directory does not make a pattern. -/
  | pattern (fault : PatternFault)
  /-- A fixture cannot be read. -/
  | unreadable (path : String) (cause : FileError)
  /-- The settings of a fixture are no use. -/
  | settingsFile (error : SettingsFileError)
  /-- An expected result cannot be written. -/
  | unwritable (path : String) (cause : FileError)
deriving DecidableEq

/-- The messages of an error, from what failed to its cause. -/
def RunError.chain : RunError → List String
  | .pattern fault => [fault.message]
  | .unreadable path cause => ["failed to read " ++ path, cause.message]
  | .settingsFile error => error.chain
  | .unwritable path cause => ["failed to write " ++ path, cause.message]

/-- The settings of the fixture at a path : those in the file beside it, if there is one. -/
def settings (t : FileTree) (path : String) : Except RunError Settings :=
  let beside := Path.withExtension path "json"
  if t.hasEntry beside then
    match t.readSettings beside with
    | .error error => .error (.settingsFile error)
    | .ok settings => .ok settings
  else .ok .standard

/-- The result of a fixture, and the path of the file in which it is expected. -/
def result (settings : Settings) (source path : String) : String × String :=
  match Schema.read settings source with
  | .ok schema => (schema.header settings, Path.withExtension path "hpp")
  | .error fault => (fault.reason.code ++ "\n", Path.withExtension path "err")

/-- Compares the result of a fixture with the expected one, or makes it that. -/
def judge (t : FileTree) (bless : Bool) (actual expectedPath : String) :
    FileTree × Except RunError Verdict :=
  let expected := (t.readText expectedPath).toOption
  if expected = some actual then (t, .ok .pass)
  else if bless then
    match t.writeText expectedPath actual with
    | .error cause => (t, .error (.unwritable expectedPath cause))
    | .ok written => (written, .ok .blessed)
  else
    match expected with
    | some text => (t, .ok (.differs (.ofTexts text actual)))
    | none => (t, .ok (.missing expectedPath))

/-- Runs the fixture at a path. -/
def runOne (t : FileTree) (bless : Bool) (path : String) : FileTree × Except RunError Outcome :=
  match t.readText path with
  | .error cause => (t, .error (.unreadable path cause))
  | .ok source =>
    match settings t path with
    | .error error => (t, .error error)
    | .ok settings =>
      let (actual, expectedPath) := result settings source path
      match judge t bless actual expectedPath with
      | (after, .error error) => (after, .error error)
      | (after, .ok verdict) => (after, .ok ⟨Path.stem path, verdict⟩)

/-! ## All fixtures -/

/-- Runs the fixtures at some paths, one after the other. -/
def runAll (t : FileTree) (bless : Bool) : List String → FileTree × Except RunError (List Outcome)
  | [] => (t, .ok [])
  | path :: rest =>
    match runOne t bless path with
    | (after, .error error) => (after, .error error)
    | (after, .ok outcome) =>
      match runAll after bless rest with
      | (last, .error error) => (last, .error error)
      | (last, .ok outcomes) => (last, .ok (outcome :: outcomes))

/-- Runs the fixtures of a directory. -/
def runDirectory (t : FileTree) (bless : Bool) (directory : String) :
    FileTree × Except RunError (List Outcome) :=
  match t.matching (Path.join directory "*.nodes") with
  | .error fault => (t, .error (.pattern fault))
  | .ok paths => runAll t bless paths

/-! ## Reports -/

/-- An outcome in a report for programs. -/
def Outcome.toJson (outcome : Outcome) : Json :=
  .obj
    ([("fixture", .str outcome.name), ("status", .str outcome.verdict.status)]
      ++ match outcome.verdict.detail? with
        | none => []
        | some detail => [("detail", .str detail)])

/-- The mark of a verdict. -/
def Verdict.mark (coloured : Bool) : Verdict → String
  | .pass => paint coloured "32" "pass"
  | .blessed => paint coloured "33" "bless"
  | .differs _ => paint coloured "1;31" "FAIL"
  | .missing _ => paint coloured "1;31" "FAIL"

/-- The line on an outcome. -/
def Outcome.line (coloured : Bool) (outcome : Outcome) : String :=
  outcome.verdict.mark coloured ++ " " ++ outcome.name
    ++ (match outcome.verdict.detail? with
      | none => ""
      | some detail => ": " ++ detail)
    ++ "\n"

/-- The text on an error : the message, and the messages of its causes below it. -/
def RunError.text (error : RunError) : String :=
  match error.chain with
  | [] => ""
  | [message] => "Error: " ++ message ++ "\n"
  | message :: causes =>
    "Error: " ++ message ++ "\n\nCaused by:\n"
      ++ String.join (causes.map fun cause => "    " ++ cause ++ "\n")

/-- The line on the fixtures that have failed, if any have. -/
def summary (outcomes : List Outcome) : String :=
  let failed := outcomes.countP fun outcome => outcome.verdict.isFailure
  if failed = 0 then ""
  else toString failed ++ " of " ++ toString outcomes.length ++ " fixture(s) failed\n"

/-- What a run of the runner is told. -/
structure Options where
  /-- The directory of the fixtures. -/
  directory : String
  /-- Make the results the expected ones. -/
  bless : Bool
  /-- Report for programs. -/
  json : Bool
deriving DecidableEq

/-- Runs the fixtures and reports on them. -/
def Options.run (options : Options) (around : Surroundings) : Report :=
  match runDirectory around.tree options.bless options.directory with
  | (tree, .error error) => ⟨1, "", error.text, tree⟩
  | (tree, .ok outcomes) =>
    let exit := if outcomes.any fun outcome => outcome.verdict.isFailure then 1 else 0
    if options.json then
      ⟨exit, (Json.arr (outcomes.map Outcome.toJson)).pretty ++ "\n", summary outcomes, tree⟩
    else
      ⟨exit, "",
        String.join (outcomes.map (Outcome.line around.coloured)) ++ summary outcomes, tree⟩

/-! ## The program -/

/-- The options of the runner. -/
inductive Key where
  | help
  | bless
  | json
deriving DecidableEq

/-- The options of the runner. -/
def table : List (OptionSpec Key) :=
  [⟨.help, "help", some 'h', .stop .help⟩,
   ⟨.bless, "bless", none, .flag⟩,
   ⟨.json, "json", none, .flag⟩]

/-- The options of a run, from the options given and the directory. -/
def ofGiven (given : Given Key) (directory : String) : Except Interruption Options :=
  if directory.isEmpty then .error .usage
  else
    .ok
      { directory
        bless := Arguments.has given .bless
        json := Arguments.has given .json }

/-- Reads the arguments of the runner : options, and one directory among them or, after
two dashes, behind them. -/
def readOptions (arguments : List String) : Except Interruption Options :=
  match Arguments.readOptions table [] arguments with
  | .error interruption => .error interruption
  | .ok (given, []) => ofGiven given "fixtures"
  | .ok (given, ["--"]) => ofGiven given "fixtures"
  | .ok (given, ["--", directory]) => ofGiven given directory
  | .ok (_, "--" :: _) => .error .usage
  | .ok (given, directory :: rest) =>
    match Arguments.readOptions table given rest with
    | .error interruption => .error interruption
    | .ok (all, left) =>
      if left = [] || left = ["--"] then ofGiven all directory else .error .usage

/-- How to use the runner. -/
def usage : String :=
  "Usage: dev-test-runner [OPTIONS] [DIR]\n\n"
    ++ "  DIR      fixture directory [default: fixtures]\n"
    ++ "  --bless  write the results as the expected ones\n"
    ++ "  --json   print a JSON report\n"

/-- Runs the runner with arguments. -/
def run (arguments : List String) (around : Surroundings) : Report :=
  match readOptions arguments with
  | .error interruption => interruption.report usage "" around.tree
  | .ok options => options.run around

end NodeSchema.Fixture
