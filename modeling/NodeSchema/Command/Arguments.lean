/-!
# Reading arguments

A command is given options and other words. An option has a long name after two dashes
and perhaps a short one after one dash; it is either a flag or takes a value. The value
of a long option follows after `=` or as the next argument. Short flags may stand
together behind one dash, and a short option's value may follow its letter directly,
with or without `=`, or as the next argument.

A value in an argument of its own must not look like an option : it is a lone dash, or
does not start with a dash. An option stands once, unless it is one that may be repeated.

Arguments are read from the left. The first one that asks for the help or the version,
or is wrong, decides (`Interruption`).
-/

namespace NodeSchema

/-- What is done instead of a command. -/
inductive Interruption where
  /-- The arguments are wrong : how to use the command is shown. -/
  | usage
  /-- The help is shown. -/
  | help
  /-- The version is shown. -/
  | version
deriving DecidableEq

/-- What an option does. -/
inductive OptionKind where
  /-- It is either there or not. -/
  | flag
  /-- It has a value, which `accepts` allows, and `repeats` if it may stand again. -/
  | value (repeats : Bool) (accepts : String → Bool)
  /-- It stops the reading of arguments. -/
  | stop (interruption : Interruption)

/-- An option that a command knows under a key of type `α`. -/
structure OptionSpec (α : Type) where
  /-- The key. -/
  key : α
  /-- The name after two dashes. -/
  long : String
  /-- The letter after one dash. -/
  short : Option Char
  /-- What the option does. -/
  kind : OptionKind

/-- The options read so far with their values; a flag's is empty. -/
abbrev Given (α : Type) := List (α × String)

namespace Arguments

variable {α : Type} [DecidableEq α]

/-- Notes an option with its value. -/
def record (given : Given α) (spec : OptionSpec α) (value : String) :
    Except Interruption (Given α) :=
  let allowed := match spec.kind with
    | .flag => !given.any fun old => old.1 = spec.key
    | .value repeats accepts => (repeats || !given.any fun old => old.1 = spec.key) && accepts value
    | .stop _ => false
  if allowed then .ok (given ++ [(spec.key, value)]) else .error .usage

/-- What an argument amounts to. -/
inductive Step (α : Type) where
  /-- It is not an option. -/
  | word
  /-- It is complete; these options have been given. -/
  | done (given : Given α)
  /-- The next argument is the value of the option; these have been given before. -/
  | awaits (given : Given α) (spec : OptionSpec α)

/-- Reads the letters behind one dash. -/
def readCluster (table : List (OptionSpec α)) (given : Given α) :
    List Char → Except Interruption (Step α)
  | [] => .ok (.done given)
  | letter :: rest =>
    match table.find? fun spec => spec.short = some letter with
    | none => .error .usage
    | some spec =>
      match spec.kind with
      | .stop interruption => .error interruption
      | .flag =>
        match record given spec "" with
        | .error interruption => .error interruption
        | .ok more => readCluster table more rest
      | .value _ _ =>
        match rest with
        | [] => .ok (.awaits given spec)
        | '=' :: value => (record given spec (String.ofList value)).map .done
        | value => (record given spec (String.ofList value)).map .done

/-- Reads the text behind two dashes : the name of an option, and its value after `=` if
there is one. -/
def readLong (table : List (OptionSpec α)) (given : Given α) (name : String)
    (attached : Option String) : Except Interruption (Step α) :=
  match table.find? fun spec => spec.long = name with
  | none => .error .usage
  | some spec =>
    match spec.kind, attached with
    | .stop interruption, none => .error interruption
    | .flag, none => (record given spec "").map .done
    | .value _ _, none => .ok (.awaits given spec)
    | .value _ _, some value => (record given spec value).map .done
    | _, some _ => .error .usage

/-- Reads an argument. Two dashes alone, like a lone dash, are no option. -/
def readArgument (table : List (OptionSpec α)) (given : Given α) (argument : String) :
    Except Interruption (Step α) :=
  match argument.toList with
  | '-' :: '-' :: [] => .ok .word
  | '-' :: '-' :: text =>
    let name := String.ofList (text.takeWhile (· != '='))
    let attached := text.dropWhile (· != '=')
    readLong table given name
      (if attached.isEmpty then none else some (String.ofList (attached.drop 1)))
  | '-' :: [] => .ok .word
  | '-' :: letters => readCluster table given letters
  | _ => .ok .word

/-- Whether an argument can be the value of the option before it. -/
def isValue (argument : String) : Bool :=
  argument = "-" || argument.toList.head? != some '-'

/-- Reads options up to the first argument that is not one. Gives the options and the
arguments from there on. -/
def readOptions (table : List (OptionSpec α)) (given : Given α) :
    List String → Except Interruption (Given α × List String)
  | [] => .ok (given, [])
  | argument :: rest =>
    match readArgument table given argument with
    | .error interruption => .error interruption
    | .ok .word => .ok (given, argument :: rest)
    | .ok (.done more) => readOptions table more rest
    | .ok (.awaits more spec) =>
      match rest with
      | [] => .error .usage
      | value :: others =>
        if isValue value then
          match record more spec value with
          | .error interruption => .error interruption
          | .ok larger => readOptions table larger others
        else .error .usage

/-- Whether an option was given. -/
def has (given : Given α) (key : α) : Bool :=
  given.any fun option => option.1 = key

/-- The value of an option. -/
def value? (given : Given α) (key : α) : Option String :=
  given.lookup key

/-- The values of an option that may be repeated. -/
def values (given : Given α) (key : α) : List String :=
  (given.filter fun option => option.1 = key).map Prod.snd

end Arguments

end NodeSchema
