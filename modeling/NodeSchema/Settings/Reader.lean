import NodeSchema.Json.Value
import NodeSchema.Settings

/-!
# Reading settings from JSON

Settings are written as an object with any of six keys, in any order, or as an array
with the values in the order of the keys. What is not written keeps its standard value.
A key must not be written twice, and there are no others.

The text is read up to the end of the object or array; what follows is not looked at.
The settings read are then checked (`Settings.check`). A fault of the text is reported
with the path to the value it was met in.
-/

namespace NodeSchema

/-- A key of written settings. -/
inductive SettingsKey where
  | separator
  | scope
  | unionName
  | visitorName
  | guardName
  | includes
deriving DecidableEq

namespace SettingsKey

/-- The keys, in the order of the array form. -/
def all : List SettingsKey :=
  [separator, scope, unionName, visitorName, guardName, includes]

/-- The key as it is written. -/
def name : SettingsKey → String
  | separator => "separator"
  | scope => "namespace"
  | unionName => "union_name"
  | visitorName => "visitor_name"
  | guardName => "include_guard"
  | includes => "includes"

/-- The key of a given name. -/
def ofName? (name : String) : Option SettingsKey :=
  all.find? fun key => key.name = name

end SettingsKey

/-- A step of the path to a value. -/
inductive PathStep where
  /-- The member of an object under a key. -/
  | key (name : String)
  /-- An item of an array. -/
  | item (index : Nat)
  /-- A member whose key is not known. -/
  | unknown
deriving DecidableEq

/-- A step as it is written after the steps before it. -/
def PathStep.text (isFirst : Bool) : PathStep → String
  | .key name => if isFirst then name else "." ++ name
  | .item index => "[" ++ toString index ++ "]"
  | .unknown => if isFirst then "?" else ".?"

/-- A path as it is written. The empty path, to the whole text, is a point. -/
def pathText : List PathStep → String
  | [] => "."
  | first :: rest => first.text true ++ String.join (rest.map (PathStep.text false))

/-- A point at which the reading of settings stops, with the path to it. -/
structure PathStop where
  /-- The path to the value that was being read. -/
  path : List PathStep
  /-- The point. -/
  stop : Json.Stop
deriving DecidableEq

namespace Settings

/-- A result with a path for its stop. -/
def within {α : Type} (path : List PathStep) : Except Json.Stop α → Except PathStop α
  | .error stop => .error ⟨path, stop⟩
  | .ok value => .ok value

/-- Reads the array of included headers, after any white space. -/
def readIncludes (path : List PathStep) (s : List Char) :
    Except PathStop (List String × List Char) :=
  match Json.skipSpace s with
  | '[' :: rest =>
    match Json.readStrings 0 rest with
    | .ok (texts, left) => .ok (texts.map String.ofList, left)
    | .error (none, stop) => .error ⟨path, stop⟩
    | .error (some index, stop) => .error ⟨path ++ [.item index], stop⟩
  | other => .error ⟨path, Json.wrongType "a sequence" other⟩

/-- Reads the value of a key into settings. -/
def readValue (settings : Settings) (path : List PathStep) (key : SettingsKey) (s : List Char) :
    Except PathStop (Settings × List Char) :=
  match key with
  | .separator =>
    (within path (Json.readCharValue s)).map fun read =>
      ({ settings with separator := read.1 }, read.2)
  | .scope =>
    (within path (Json.readStringValue "a string" s)).map fun read =>
      ({ settings with scope := String.ofList read.1 }, read.2)
  | .unionName =>
    (within path (Json.readStringValue "a string" s)).map fun read =>
      ({ settings with unionName := String.ofList read.1 }, read.2)
  | .visitorName =>
    (within path (Json.readStringValue "a string" s)).map fun read =>
      ({ settings with visitorName := String.ofList read.1 }, read.2)
  | .guardName =>
    (within path (Json.readOptionalString s)).map fun read =>
      ({ settings with guardName := read.1.map String.ofList }, read.2)
  | .includes =>
    (readIncludes path s).map fun read => ({ settings with includes := read.1 }, read.2)

/-! ## The object form -/

/-- The stop at a key that must not stand where it does. White space after the key and
the end of the object count as read. -/
def keyStop (reason : Json.Reason) (s : List Char) : Json.Stop :=
  match Json.skipSpace s with
  | '\x7d' :: rest => .before reason rest
  | rest => .before reason rest

/-- Looks for the next member of an object : at the start of the object, or else after
the comma that follows the last member. Gives the text after the opening quotation mark
of its key, or `none` at the end of the object. -/
def nextMember (atStart : Bool) (s : List Char) : Except Json.Stop (Option (List Char)) :=
  match Json.skipSpace s with
  | [] => .error (.on .endInObject [])
  | '\x7d' :: _ => .ok none
  | other =>
    if atStart then
      match other with
      | '"' :: rest => .ok (some rest)
      | _ => .error (.on .keyNotString other)
    else
      match other with
      | ',' :: rest =>
        match Json.skipSpace rest with
        | [] => .error (.on .endInValue [])
        | '"' :: left => .ok (some left)
        | '\x7d' :: left => .error (.on .trailingComma ('\x7d' :: left))
        | left => .error (.on .keyNotString left)
      | _ => .error (.on .expectedMemberEnd other)

/-- Reads the colon after a key. -/
def readColon (s : List Char) : Except Json.Stop (List Char) :=
  match Json.skipSpace s with
  | [] => .error (.on .endInObject [])
  | ':' :: rest => .ok rest
  | other => .error (.on .expectedColon other)

/-- Reads the members of an object into settings. The keys that may still come are
`awaited`; the object is at its start as long as all of them are. -/
def readMembers (settings : Settings) (awaited : List SettingsKey) (s : List Char) :
    Except PathStop Settings :=
  match within [.unknown] (nextMember (awaited = SettingsKey.all) s) with
  | .error stop => .error stop
  | .ok none => .ok settings
  | .ok (some quotedKey) =>
    match within [.unknown] (Json.readString quotedKey) with
    | .error stop => .error stop
    | .ok (name, afterKey) =>
      let name := String.ofList name
      match SettingsKey.ofName? name with
      | none =>
        let known := SettingsKey.all.map SettingsKey.name
        .error ⟨[.key name], keyStop (.unknownKey name known) afterKey⟩
      | some key =>
        if _isAwaited : key ∈ awaited then
          match within [] (readColon afterKey) with
          | .error stop => .error stop
          | .ok afterColon =>
            match readValue settings [.key key.name] key afterColon with
            | .error stop => .error stop
            | .ok (larger, rest) => readMembers larger (awaited.erase key) rest
        else .error ⟨[], keyStop (.duplicateKey name) afterKey⟩
termination_by awaited.length
decreasing_by
  rw [List.length_erase_of_mem ‹_›]
  have := List.length_pos_of_mem ‹_›
  omega

/-! ## The array form -/

/-- Reads the values of an array into settings, for the given keys, the first of which is
number `index`. -/
def readItems (settings : Settings) (index : Nat) :
    List SettingsKey → List Char → Except PathStop Settings
  | [], s => (within [] (Json.readArrayEnd s)).map fun _ => settings
  | key :: rest, s =>
    match within [] (Json.nextItem (index = 0) s) with
    | .error stop => .error stop
    | .ok (.closed _) => .ok settings
    | .ok (.item item) =>
      match readValue settings [.item index] key item with
      | .error stop => .error stop
      | .ok (larger, left) => readItems larger (index + 1) rest left

/-! ## The whole text -/

/-- Reads the settings that a text starts with. -/
def readText (text : List Char) : Except PathStop Settings :=
  match Json.skipSpace text with
  | '\x7b' :: rest => readMembers standard SettingsKey.all rest
  | '[' :: rest => readItems standard 0 SettingsKey.all rest
  | other => .error ⟨[], Json.wrongType "struct Config" other⟩

end Settings

/-- Why a text does not give settings. -/
inductive SettingsFault where
  /-- The text is not a JSON form of settings : the path, and what is wrong there. -/
  | malformed (path : List PathStep) (fault : Json.Fault)
  /-- The settings cannot be used. -/
  | unusable (problem : SettingsProblem)
deriving DecidableEq

/-- The wording of a fault. -/
def SettingsFault.message : SettingsFault → String
  | .malformed path fault =>
    "invalid config at JSON path " ++ pathText path ++ ": " ++ fault.message
  | .unusable problem => problem.message

/-- Reads settings from their JSON form and checks them. -/
def Settings.read (source : String) : Except SettingsFault Settings :=
  let text := source.toList
  match Settings.readText text with
  | .error failed => .error (.malformed failed.path (failed.stop.fault text))
  | .ok settings =>
    match settings.check with
    | .error problem => .error (.unusable problem)
    | .ok () => .ok settings

end NodeSchema
