import NodeSchema.Proofs.Arguments
import NodeSchema.Proofs.Locality
import NodeSchema.Proofs.PrettyText
import NodeSchema.Proofs.Run
import NodeSchema.Proofs.Settings
import NodeSchema.Proofs.SettingsText

/-!
# Options or a settings file

The options of a command that stand in place of settings can as well be written into the
settings file. `Command.usingFile` is the command with no such options and another settings
file. If that file holds the settings that the options make of the first one, in either form
in which JSON is written, then both runs come to the same, as long as the schema and the output
are elsewhere (`run_eq_run_usingFile`).

The run with the file checks the settings twice, the run with the options only once with all
values in them. So settings that cannot be used are reported in different words, but neither
run writes anything.
-/

namespace NodeSchema

/-! ## Settings in their pretty form -/

namespace Json

theorem space_lineStart (level : Nat) : Space (lineStart level).toList := by
  simp [Space, lineStart, isSpace]

/-- Entries on lines of their own are listed between their brackets. -/
theorem listed_bracketed {α β : Type*} {item : α → List Char → Prop} {f : β → α}
    {text : β → String} {l : List β} (h : ∀ b ∈ l, item (f b) (text b).toList)
    (opening closing : String) (level : Nat) :
    ∃ inner, Listed item (l.map f) inner ∧
      (bracketed opening closing level (l.map text)).toList =
        opening.toList ++ (inner ++ closing.toList) := by
  cases l with
  | nil => exact ⟨[], .nil space_nil, by simp [bracketed]⟩
  | cons b rest =>
    refine ⟨_, listed_spaced (space_lineStart (level + 1)) (space_lineStart level) h, ?_⟩
    simp only [bracketed, List.map_cons, List.isEmpty_cons, Bool.false_eq_true, if_false,
      String.toList_append, String.toList_intercalate, List.map_map, Function.comp_def,
      List.append_assoc]
    rfl

end Json

namespace Settings

open Json

/-- The pretty text of a value is one of its texts. -/
theorem isText_prettyAt (choice : Choice) (level : Nat) :
    choice.IsText (choice.toJson.prettyAt level).toList := by
  cases choice with
  | separator c => exact .separator c
  | scope name => exact .scope name
  | unionName name => exact .unionName name
  | visitorName name => exact .visitorName name
  | guardName name =>
    cases name with
    | none => exact .noGuard
    | some name => exact .guardName name
  | includes headers =>
    have hstring : ∀ header ∈ headers, StringText (id header) (string header).toList :=
      fun _ _ => rfl
    obtain ⟨inner, hlisted, htext⟩ := listed_bracketed hstring "[" "]" level
    have hitems : headers.map ((prettyAt (level + 1)) ∘ str) = headers.map string := rfl
    rw [Choice.toJson, prettyAt, prettyItems_eq, List.map_map, hitems, htext]
    rw [List.map_id] at hlisted
    exact .includes hlisted

/-- The pretty text of settings is one of their texts. -/
theorem isSettingsText_pretty (settings : Settings) :
    IsSettingsText (settings.choices.map Member.choice) settings.toJson.pretty := by
  have hmember (c : Choice) (_ : c ∈ settings.choices) : (Member.choice c).IsText
      (prettyMember 1 (c.key.name, c.toJson)).toList := by
    have hmember := Member.IsText.choice space_nil (show Space [' '] by decide)
      (isText_prettyAt c 1)
    simpa [prettyMember] using hmember
  obtain ⟨inner, hlisted, htext⟩ := listed_bracketed hmember "\x7b" "\x7d" 0
  refine ⟨[], inner, [], ?_, space_nil, hlisted⟩
  rw [toJson_eq, pretty, prettyAt, prettyMembers_eq, List.map_map]
  exact htext

/-- What is read from a file with settings in it. -/
theorem read_written {settings : Settings} {text : String}
    (htext : text = settings.toJson.compact ∨ text = settings.toJson.pretty) :
    read text = match settings.check with
      | .error problem => .error (.unusable problem)
      | .ok () => .ok settings := by
  have hmembers : IsSettingsText (settings.choices.map Member.choice) text := by
    rcases htext with rfl | rfl
    · exact isSettingsText_compact settings
    · exact isSettingsText_pretty settings
  have hread := read_of_hasKeys hmembers (hasKeys_choices settings)
  rw [ofMembers_choices] at hread
  exact hread

end Settings

/-! ## The command with a settings file -/

namespace Command

/-- What every command takes, with a settings file and no options that stand in place of
settings. -/
def inputUsingFile (path : String) (options : InputOptions) : InputOptions :=
  ⟨options.input, some path, none, none, none⟩

/-- The command for the same schema and the same output, with a settings file and no options that
stand in place of settings. -/
def usingFile (path : String) : Command → Command
  | cpp options =>
    .cpp ⟨inputUsingFile path options.source, none, none, [], options.out, options.dryRun⟩
  | schema source out => .schema (inputUsingFile path source) out
  | check source => .check (inputUsingFile path source)

variable {command : Command} {path : String}

@[simp] theorem source_usingFile (command : Command) (path : String) :
    (command.usingFile path).source = inputUsingFile path command.source := by
  cases command <;> rfl

@[simp] theorem out?_usingFile (command : Command) (path : String) :
    (command.usingFile path).out? = command.out? := by
  cases command <;> rfl

@[simp] theorem isDryRun_usingFile (command : Command) (path : String) :
    (command.usingFile path).isDryRun = command.isDryRun := by
  cases command <;> rfl

theorem product_usingFile (command : Command) (path : String) :
    (command.usingFile path).product = command.product := by
  cases command <;> rfl

/-- Without options in their place, the settings are those of the file. -/
theorem overrides_usingFile (command : Command) (path : String) (settings : Settings) :
    (command.usingFile path).Overrides settings settings := by
  cases command <;> constructor <;>
    simp [usingFile, inputUsingFile, source, scope?, guardName?, Command.includes]

end Command

open FileTree

section UsingFile

variable {command : Command} {around : Surroundings} {otherTree : FileTree} {place : List String}
  {merged : Settings} {fresh : String}

/-- Two runs for one schema are alike if their settings are. -/
theorem Command.prepare_usingFile (hsettings : command.settings around.tree = .ok merged)
    (hother : (command.usingFile fresh).settings otherTree = .ok merged)
    (hsame : SameBut place around.tree otherTree)
    (hinput : command.source.input = "-" ∨
      ¬around.tree.GoesThrough command.source.input place) :
    (command.usingFile fresh).prepare { around with tree := otherTree } =
      command.prepare around := by
  have htext : (inputUsingFile fresh command.source).sourceText { around with tree := otherTree } =
      command.source.sourceText around := by
    unfold InputOptions.sourceText inputUsingFile
    split_ifs with hdash
    · rfl
    · rw [hsame.readText (hinput.resolve_left hdash)]
  unfold prepare
  rw [hsettings, hother, source_usingFile, htext]
  rfl

/-- Two runs that get one schema with the same settings do the same. -/
theorem Invocation.run_usingFile {verbose : Bool} (hreal : command.isDryRun = false)
    (hprepare : (command.usingFile fresh).prepare { around with tree := otherTree } =
      command.prepare around)
    (hplace : place ≠ []) (hsame : SameBut place around.tree otherTree)
    (hout : ∀ path, command.out? = some path → ¬around.tree.GoesThrough path place) :
    let report := Invocation.run ⟨verbose, command⟩ around
    let other := Invocation.run ⟨verbose, command.usingFile fresh⟩ { around with tree := otherTree }
    other.exit = report.exit ∧ other.stdout = report.stdout ∧ other.stderr = report.stderr ∧
      SameChange place around.tree otherTree report.tree other.tree := by
  have hreal' : (command.usingFile fresh).isDryRun = false := by simp [hreal]
  have hreadNote : (⟨verbose, command.usingFile fresh⟩ : Invocation).readNote =
      (⟨verbose, command⟩ : Invocation).readNote := by
    cases command <;> rfl
  have hwriteNote : (⟨verbose, command.usingFile fresh⟩ : Invocation).writeNote =
      (⟨verbose, command⟩ : Invocation).writeNote := by
    cases command <;> rfl
  dsimp only
  cases hresult : command.prepare around with
  | error error =>
    rw [hresult] at hprepare
    rw [run_of_prepare_error hreal' hprepare, run_of_prepare_error hreal hresult]
    exact ⟨rfl, rfl, rfl, hsame.unchanged⟩
  | ok prepared =>
    obtain ⟨settings, schema⟩ := prepared
    rw [hresult] at hprepare
    cases htarget : command.out? with
    | none =>
      have htarget' : (command.usingFile fresh).out? = none := by simp [htarget]
      rw [run_without_file hreal' hprepare htarget', run_without_file hreal hresult htarget,
        hreadNote]
      dsimp only
      rw [Command.product_usingFile]
      exact ⟨rfl, rfl, rfl, hsame.unchanged⟩
    | some path =>
      have htarget' : (command.usingFile fresh).out? = some path := by simp [htarget]
      rw [run_to_file hreal' hprepare htarget', run_to_file hreal hresult htarget, hreadNote,
        hwriteNote]
      dsimp only
      rw [Command.product_usingFile]
      have hdelivered := hsame.deliver hplace (hout path htarget)
        (command.product around.coloured settings schema)
      generalize around.tree.deliver path _ = delivered at hdelivered
      generalize otherTree.deliver path _ = otherDelivered at hdelivered
      cases hdelivered with
      | of result hchange =>
        cases result with
        | error error => exact ⟨rfl, rfl, rfl, hchange⟩
        | ok => exact ⟨rfl, rfl, rfl, hchange⟩

end UsingFile

/-- Settings are only found in a file with a name. -/
theorem Command.HasBase.config_ne_empty {command : Command} {t : FileTree} {base : Settings}
    (h : command.HasBase t base) : command.source.config ≠ some "" := by
  rintro hempty
  cases h with
  | standard hconfig => simp [hconfig] at hempty
  | file hconfig htext =>
    obtain rfl : _ = "" := Option.some_inj.mp (hconfig.symm.trans hempty)
    cases htext

section Written

variable {command : Command} {settings : Settings} {fresh text : String}
  (htext : text = settings.toJson.compact ∨ text = settings.toJson.pretty)
include htext

/-- Usable settings in the file are those of the run. -/
theorem Command.hasSettings_usingFile {t : FileTree} (hfile : t.readText fresh = .ok text)
    (husable : settings.Usable) : (command.usingFile fresh).HasSettings t settings := by
  have hcheck := Settings.check_eq_ok_iff.mpr husable
  have hread : Settings.read text = .ok settings := by rw [Settings.read_written htext, hcheck]
  have hbase : (command.usingFile fresh).HasBase t settings :=
    .file (by rw [source_usingFile]; rfl) hfile hread
  exact ⟨⟨settings, hbase, overrides_usingFile command fresh settings⟩, hcheck⟩

/-- Other settings in the file hinder the run. -/
theorem Command.hindered_usingFile {around : Surroundings}
    (hfile : around.tree.readText fresh = .ok text) {problem : SettingsProblem}
    (hcheck : settings.check = .error problem) : (command.usingFile fresh).Hindered around := by
  have hread : Settings.read text = .error (.unusable problem) := by
    rw [Settings.read_written htext, hcheck]
  exact .faultySettings (by rw [source_usingFile]; rfl) hfile hread

end Written

/-- Options that stand in place of settings can as well be written into the settings file : a run
with a file that holds the settings which they make has the same exit status and the same texts
on its outputs, and writes the same, if that file is none of those that its other options lead
to. If these settings cannot be used, both runs fail and write nothing. -/
theorem run_eq_run_usingFile {arguments others : List String} {verbose : Bool} {command : Command}
    {fresh text : String}
    (hread : Invocation.read arguments = Invocation.read (Invocation.arguments ⟨verbose, command⟩))
    (hother : Invocation.read others =
      Invocation.read (Invocation.arguments ⟨verbose, command.usingFile fresh⟩))
    (hreal : command.isDryRun = false) (hnamed : command.out? ≠ some "")
    {around : Surroundings} {base merged : Settings}
    (hbase : command.HasBase around.tree base) (hmerged : command.Overrides base merged)
    {otherTree : FileTree} {place : List String}
    (htext : text = merged.toJson.compact ∨ text = merged.toJson.pretty)
    (hfresh : otherTree.entryAt fresh = .ok (place, .file text.toUTF8))
    (hsame : SameBut place around.tree otherTree)
    (hinput : command.source.input = "-" ∨
      ¬around.tree.GoesThrough command.source.input place)
    (hout : ∀ path, command.out? = some path → ¬around.tree.GoesThrough path place) :
    let report := Generator.run arguments around
    let other := Generator.run others { around with tree := otherTree }
    (merged.Usable →
      other.exit = report.exit ∧ other.stdout = report.stdout ∧ other.stderr = report.stderr ∧
        SameChange place around.tree otherTree report.tree other.tree) ∧
    (¬merged.Usable →
      report.exit = 1 ∧ report.stdout = "" ∧ report.tree = around.tree ∧
        other.exit = 1 ∧ other.stdout = "" ∧ other.tree = otherTree) := by
  have hfile : otherTree.readText fresh = .ok text := readText_of_entryAt hfresh
  have hfreshNamed : (command.usingFile fresh).source.config ≠ some "" := by
    rw [Command.source_usingFile]
    rintro ⟨⟩
    cases hfresh
  have hnamed' : (command.usingFile fresh).out? ≠ some "" := by rwa [Command.out?_usingFile]
  have harguments : Invocation.read arguments = .ok ⟨verbose, command⟩ :=
    hread.trans (Invocation.read_arguments hbase.config_ne_empty hnamed)
  have hothers : Invocation.read others = .ok ⟨verbose, command.usingFile fresh⟩ :=
    hother.trans (Invocation.read_arguments hfreshNamed hnamed')
  rw [Generator.run_of_read harguments, Generator.run_of_read hothers]
  refine ⟨fun husable => ?_, fun husable => ?_⟩
  · have hsettings : command.settings around.tree = .ok merged :=
      Command.settings_eq_ok_iff.mpr ⟨⟨base, hbase, hmerged⟩, Settings.check_eq_ok_iff.mpr husable⟩
    have hsettings' : (command.usingFile fresh).settings otherTree = .ok merged :=
      Command.settings_eq_ok_iff.mpr (Command.hasSettings_usingFile htext hfile husable)
    have hplace : place ≠ [] := by
      rintro rfl
      obtain ⟨-, -, hfind⟩ := entryAt_eq_ok hfresh
      cases hfind
    exact Invocation.run_usingFile hreal
      (Command.prepare_usingFile hsettings hsettings' hsame hinput) hplace hsame hout
  · cases hcheck : merged.check with
    | ok => exact absurd (Settings.check_eq_ok_iff.mp hcheck) husable
    | error problem =>
      have hhindered : command.Hindered around := .unusable hbase hmerged hcheck
      have hhindered' : (command.usingFile fresh).Hindered { around with tree := otherTree } :=
        Command.hindered_usingFile htext hfile hcheck
      have hreal' : (command.usingFile fresh).isDryRun = false := by simp [hreal]
      obtain ⟨hexit, hstdout, htree⟩ :=
        @Invocation.run_of_hindered ⟨verbose, command⟩ _ hreal hhindered
      obtain ⟨hexit', hstdout', htree'⟩ :=
        @Invocation.run_of_hindered ⟨verbose, command.usingFile fresh⟩ _ hreal' hhindered'
      exact ⟨hexit, hstdout, htree, hexit', hstdout', htree'⟩

/-- A separator and a header given with the command, and the same in a second settings file, which
the first tree does not have. -/
theorem run_eq_run_usingFile_once :
    ∃ (around : Surroundings) (otherTree : FileTree) (base merged : Settings) (command : Command),
      Invocation.read ["cpp", "-inodes", "--config=old", "--separator=;", "--include=x.h", "-oout"] =
        .ok ⟨false, command⟩ ∧
      Invocation.read ["cpp", "-inodes", "--config=new", "-oout"] =
        .ok ⟨false, command.usingFile "new"⟩ ∧
      command.HasBase around.tree base ∧ base ≠ .standard ∧ command.Overrides base merged ∧
      merged ≠ base ∧ merged.Usable ∧
      around.tree.readText "new" = .error .notFound ∧
      otherTree.readText "new" = .ok merged.toJson.compact ∧
      (Generator.run ["cpp", "-inodes", "--config=new", "-oout"]
          { around with tree := otherTree }).exit =
        (Generator.run ["cpp", "-inodes", "--config=old", "--separator=;", "--include=x.h", "-oout"]
          around).exit ∧
      SameChange ["here", "new"] around.tree otherTree
        (Generator.run ["cpp", "-inodes", "--config=old", "--separator=;", "--include=x.h", "-oout"]
          around).tree
        (Generator.run ["cpp", "-inodes", "--config=new", "-oout"]
          { around with tree := otherTree }).tree := by
  let base : Settings := { Settings.standard with scope := "lang" }
  let merged : Settings := { base with separator := ';', includes := ["x.h"] }
  let around : Surroundings :=
    { stdin := ByteArray.empty
      coloured := false
      tree :=
        { entries :=
            [(["here"], .directory), (["here", "nodes"], .file "leaf ; int value".toUTF8),
             (["here", "old"], .file base.toJson.compact.toUTF8)]
          here := ["here"] } }
  let otherTree := around.tree.put ["here", "new"] (.file merged.toJson.compact.toUTF8)
  let command : Command :=
    .cpp ⟨⟨"nodes", some "old", some ';', none, none⟩, none, none, ["x.h"], some "out", false⟩
  have hread : Invocation.read
      ["cpp", "-inodes", "--config=old", "--separator=;", "--include=x.h", "-oout"] =
        .ok ⟨false, command⟩ := by decide
  have hother : Invocation.read ["cpp", "-inodes", "--config=new", "-oout"] =
      .ok ⟨false, command.usingFile "new"⟩ := by decide
  have hold : around.tree.entryAt "old" =
    .ok (["here", "old"], .file base.toJson.compact.toUTF8) := rfl
  have hcheck : base.check = .ok () := by decide
  have hbase : command.HasBase around.tree base :=
    .file rfl (readText_of_entryAt hold) (by rw [Settings.read_written (.inl rfl), hcheck])
  have hmerged : command.Overrides base merged := by constructor <;> rfl
  have husable : merged.Usable := Settings.check_eq_ok_iff.mp (by decide)
  have hfresh : otherTree.entryAt "new" =
    .ok (["here", "new"], .file merged.toJson.compact.toUTF8) := rfl
  have hsame : SameBut ["here", "new"] around.tree otherTree :=
    ⟨rfl, fun p hp => by rw [find?_put (by simp), if_neg hp]⟩
  have hout : ∀ path, command.out? = some path →
      ¬around.tree.GoesThrough path ["here", "new"] := by
    rintro path ⟨⟩
    decide
  have hnamed : command.out? ≠ some "" := by decide
  have hspelled := hread.trans (Invocation.read_arguments hbase.config_ne_empty hnamed).symm
  have hspelled' := hother.trans
    (Invocation.read_arguments (show (command.usingFile "new").source.config ≠ some "" by decide)
      hnamed).symm
  obtain ⟨hexit, -, -, hchange⟩ := (run_eq_run_usingFile hspelled hspelled' rfl hnamed hbase
    hmerged (.inl rfl) hfresh hsame (.inr (by decide)) hout).1 husable
  exact ⟨around, otherTree, base, merged, command, hread, hother, hbase, by decide, hmerged,
    by decide, husable, rfl, readText_of_entryAt hfresh, hexit, hchange⟩

end NodeSchema
