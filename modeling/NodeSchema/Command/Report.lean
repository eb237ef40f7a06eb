import NodeSchema.Command.Arguments
import NodeSchema.FileTree
import NodeSchema.Settings.Reader

/-!
# What a run leaves behind

A run of a program is described by its exit status, the texts on its two outputs and the
file tree after it (`Report`). An error is told as a chain of messages, from what failed
to its cause.
-/

namespace NodeSchema

/-- The outcome of a run. -/
structure Report where
  /-- The exit status. -/
  exit : Nat
  /-- The text on the standard output. -/
  stdout : String
  /-- The text on the standard error. -/
  stderr : String
  /-- The file tree after the run. -/
  tree : FileTree
deriving DecidableEq

/-- What a program is run with. -/
structure Surroundings where
  /-- The content of the standard input. -/
  stdin : ByteArray
  /-- Whether marks are coloured. -/
  coloured : Bool
  /-- The file tree before the run. -/
  tree : FileTree

/-- A mark, with the escape codes of a terminal around it if it is coloured. -/
def paint (coloured : Bool) (codes mark : String) : String :=
  if coloured then "\x1b[" ++ codes ++ "m" ++ mark ++ "\x1b[0m" else mark

/-- Whether marks are coloured, by the variables `CLICOLOR_FORCE`, `NO_COLOR` and
`CLICOLOR` of the environment and by whether the output is a terminal. A variable that
is set to `0` counts as switched off, but `NO_COLOR` counts as soon as it is set. -/
def isColoured (force noColour choice : Option String) (isTerminal : Bool) : Bool :=
  if force.any fun value => value != "0" then true
  else if noColour.isSome then false
  else choice.all (fun value => value != "0") && isTerminal

/-- The report of a run that was interrupted before it began. -/
def Interruption.report (interruption : Interruption) (usage version : String)
    (tree : FileTree) : Report :=
  match interruption with
  | .usage => ⟨2, "", usage, tree⟩
  | .help => ⟨0, usage, "", tree⟩
  | .version => ⟨0, version, "", tree⟩

/-! ## Settings files -/

/-- Why a file does not give settings. -/
inductive SettingsFileError where
  /-- The file cannot be read. -/
  | unreadable (path : String) (cause : FileError)
  /-- Its text does not give settings. -/
  | faulty (fault : SettingsFault)
deriving DecidableEq

/-- The messages of an error, from what failed to its cause. -/
def SettingsFileError.chain : SettingsFileError → List String
  | .unreadable path cause =>
    ["failed to read config file " ++ path ++ ": " ++ cause.message, cause.message]
  | .faulty fault => [fault.message]

/-- The settings in the file at a path. -/
def FileTree.readSettings (t : FileTree) (path : String) : Except SettingsFileError Settings :=
  match t.readText path with
  | .error cause => .error (.unreadable path cause)
  | .ok text =>
    match Settings.read text with
    | .error fault => .error (.faulty fault)
    | .ok settings => .ok settings

end NodeSchema
