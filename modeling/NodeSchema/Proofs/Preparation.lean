import Mathlib.Data.List.Basic
import NodeSchema.Command.Generator

/-!
# What a run works with

A run of the generator finds the settings it starts from (`Command.HasBase`), puts the values
of its options in their place (`Command.Overrides`) and checks them (`Command.HasSettings`).
With them it reads the schema (`Command.Reads`).

`prepare_eq_ok_iff` and `prepare_eq_schema_iff` say when a run gets its schema, and when the
schema is at fault. Whatever else keeps a run from it (`Command.Hindered`) is an error, too
(`exists_prepare_eq_error_iff`).
-/

namespace NodeSchema

/-! ## The options of a command -/

namespace Command

/-- The namespace that a command is given. -/
def scope? : Command → Option String
  | cpp options => options.scope
  | _ => none

/-- The guard macro that a command is given. -/
def guardName? : Command → Option String
  | cpp options => options.guardName
  | _ => none

/-- The further headers that a command is given. -/
def includes : Command → List String
  | cpp options => options.includes
  | _ => []

/-- Each value that the command is given stands in place of the value of the base, and the
headers that it is given follow those of the base. -/
structure Overrides (command : Command) (base merged : Settings) : Prop where
  separator : merged.separator = command.source.separator.getD base.separator
  scope : merged.scope = command.scope?.getD base.scope
  unionName : merged.unionName = command.source.unionName.getD base.unionName
  visitorName : merged.visitorName = command.source.visitorName.getD base.visitorName
  guardName : merged.guardName = command.guardName?.or base.guardName
  includes : merged.includes = base.includes ++ command.includes

/-- The settings that the options of a command make of a base. -/
theorem overrides_iff {command : Command} {base merged : Settings} :
    command.Overrides base merged ↔ merged = command.applyTo base := by
  refine ⟨?_, ?_⟩
  · rintro ⟨hseparator, hscope, hunion, hvisitor, hguard, hincludes⟩
    cases merged
    cases command <;> simp_all [applyTo, HeaderOptions.applyTo, InputOptions.applyTo, scope?,
      guardName?, Command.includes, source]
  · rintro rfl
    cases command <;> constructor <;> simp [applyTo, HeaderOptions.applyTo, InputOptions.applyTo,
      scope?, guardName?, Command.includes, source]

/-- The settings that a command starts from : the standard ones, or those in its settings
file. -/
inductive HasBase (command : Command) (t : FileTree) : Settings → Prop
  | standard (hconfig : command.source.config = none) : HasBase command t .standard
  | file {path text : String} {base : Settings} (hconfig : command.source.config = some path)
      (htext : t.readText path = .ok text) (hread : Settings.read text = .ok base) :
      HasBase command t base

end Command

/-- The text of a schema : the standard input for a lone dash, or else the file's content. -/
def InputOptions.content (options : InputOptions) (around : Surroundings) :
    Except FileError String :=
  if options.input = "-" then decodeText around.stdin else around.tree.readText options.input

namespace Command

variable {command : Command} {around : Surroundings} {settings base : Settings} {schema : Schema}

/-- The settings that a run works with : those it starts from, with the values of its options
in their place. -/
structure HasSettings (command : Command) (t : FileTree) (settings : Settings) : Prop where
  merged : ∃ base, command.HasBase t base ∧ command.Overrides base settings
  usable : settings.check = .ok ()

/-- The settings and the schema that a run works with. -/
structure Reads (command : Command) (around : Surroundings) (settings : Settings)
    (schema : Schema) : Prop where
  ready : command.HasSettings around.tree settings
  read : ∃ text, command.source.content around = .ok text ∧
    Schema.read settings text = .ok schema

/-- What keeps a run from its settings or its schema. -/
inductive Hindered (command : Command) (around : Surroundings) : Prop
  /-- The settings file cannot be read. -/
  | unreadableSettings {path : String} {cause : FileError}
      (hconfig : command.source.config = some path)
      (htext : around.tree.readText path = .error cause)
  /-- The settings file does not give settings, or none that can be used. -/
  | faultySettings {path text : String} {fault : SettingsFault}
      (hconfig : command.source.config = some path) (htext : around.tree.readText path = .ok text)
      (hread : Settings.read text = .error fault)
  /-- The settings cannot be used with the values of the options in them. -/
  | unusable {base merged : Settings} {problem : SettingsProblem}
      (hbase : command.HasBase around.tree base) (hmerged : command.Overrides base merged)
      (hcheck : merged.check = .error problem)
  /-- The schema cannot be read as text. -/
  | unreadableSchema {cause : FileError} (hcontent : command.source.content around = .error cause)
  /-- The schema has a fault. -/
  | faultySchema {base merged : Settings} {text : String} {fault : Fault}
      (hbase : command.HasBase around.tree base) (hmerged : command.Overrides base merged)
      (hcontent : command.source.content around = .ok text)
      (hread : Schema.read merged text = .error fault)

/-! ## Preparing a run -/

theorem baseSettings_eq_ok_iff {t : FileTree} :
    command.source.baseSettings t = .ok base ↔ command.HasBase t base := by
  unfold InputOptions.baseSettings FileTree.readSettings
  refine ⟨fun h => ?_, ?_⟩
  · split at h
    · next hconfig =>
      cases h
      exact .standard hconfig
    · next path hconfig =>
      split at h
      · cases h
      · next hsettings =>
        split at hsettings
        · cases hsettings
        · next htext =>
          split at hsettings
          · cases hsettings
          · next hread =>
            cases hsettings
            cases h
            exact .file hconfig htext hread
  · rintro (hconfig | ⟨hconfig, htext, hread⟩)
    · rw [hconfig]
    · simp only [hconfig, htext, hread]

theorem HasBase.unique {t : FileTree} {other : Settings} (h : command.HasBase t base)
    (hother : command.HasBase t other) : base = other := by
  have := baseSettings_eq_ok_iff.mpr h
  rw [baseSettings_eq_ok_iff.mpr hother, Except.ok.injEq] at this
  exact this.symm

theorem settings_eq_ok_iff {t : FileTree} :
    command.settings t = .ok settings ↔ command.HasSettings t settings := by
  unfold Command.settings
  refine ⟨fun h => ?_, ?_⟩
  · split at h
    · cases h
    · next base hbase =>
      dsimp only at h
      split at h
      · cases h
      · next hcheck =>
        cases h
        exact ⟨⟨base, baseSettings_eq_ok_iff.mp hbase, overrides_iff.mpr rfl⟩, hcheck⟩
  · rintro ⟨⟨base, hbase, hmerged⟩, hcheck⟩
    rw [overrides_iff] at hmerged
    subst hmerged
    simp only [baseSettings_eq_ok_iff.mpr hbase, hcheck]

/-- Without settings, either the settings file is no use or the values of the options are. -/
theorem settings_eq_error {t : FileTree} {error : GeneratorError}
    (h : command.settings t = .error error) :
    (∃ path cause, command.source.config = some path ∧ t.readSettings path = .error cause ∧
        error = .settingsFile cause) ∨
      ∃ base problem, command.HasBase t base ∧ (command.applyTo base).check = .error problem ∧
        error = .settings problem := by
  unfold Command.settings at h
  split at h
  · next hbase =>
    cases h
    unfold InputOptions.baseSettings at hbase
    split at hbase
    · cases hbase
    · next path hconfig =>
      split at hbase
      · next cause hcause =>
        cases hbase
        exact .inl ⟨path, cause, hconfig, hcause, rfl⟩
      · cases hbase
  · next base hbase =>
    dsimp only at h
    split at h
    · next problem hproblem =>
      cases h
      exact .inr ⟨base, problem, baseSettings_eq_ok_iff.mp hbase, hproblem, rfl⟩
    · cases h

theorem HasSettings.unique {t : FileTree} {other : Settings} (h : command.HasSettings t settings)
    (hother : command.HasSettings t other) : settings = other := by
  have := settings_eq_ok_iff.mpr h
  rw [settings_eq_ok_iff.mpr hother, Except.ok.injEq] at this
  exact this.symm

theorem sourceText_eq_ok_iff {options : InputOptions} {text : String} :
    options.sourceText around = .ok text ↔ options.content around = .ok text := by
  unfold InputOptions.sourceText InputOptions.content
  split_ifs
  · cases decodeText around.stdin <;> simp
  · cases around.tree.readText options.input <;> simp

theorem sourceText_eq_error {options : InputOptions} {error : GeneratorError}
    (h : options.sourceText around = .error error) :
    ∃ cause, options.content around = .error cause ∧
      (error = .standardInput cause ∨ error = .schemaFile options.input cause) := by
  unfold InputOptions.sourceText at h
  unfold InputOptions.content
  split_ifs at h ⊢
  · split at h
    · next cause hcause =>
      cases h
      exact ⟨cause, hcause, .inl rfl⟩
    · cases h
  · split at h
    · next cause hcause =>
      cases h
      exact ⟨cause, hcause, .inr rfl⟩
    · cases h

/-- Settings and schema are ready exactly if they can be read. -/
theorem prepare_eq_ok_iff :
    command.prepare around = .ok (settings, schema) ↔ command.Reads around settings schema := by
  unfold prepare
  refine ⟨fun h => ?_, ?_⟩
  · split at h
    · cases h
    · next hsettings =>
      split at h
      · cases h
      · next htext =>
        split at h
        · cases h
        · next hread =>
          cases h
          exact ⟨settings_eq_ok_iff.mp hsettings, _, sourceText_eq_ok_iff.mp htext, hread⟩
  · rintro ⟨hsettings, text, htext, hread⟩
    simp only [settings_eq_ok_iff.mpr hsettings, sourceText_eq_ok_iff.mpr htext, hread]

/-- The schema is at fault exactly if the settings and its text can be read. -/
theorem prepare_eq_schema_iff {label : String} {fault : Fault} :
    command.prepare around = .error (.schema label fault) ↔
      label = command.source.label ∧ ∃ settings, command.HasSettings around.tree settings ∧
        ∃ text, command.source.content around = .ok text ∧
          Schema.read settings text = .error fault := by
  unfold prepare
  refine ⟨fun h => ?_, ?_⟩
  · split at h
    · next hsettings =>
      cases h
      rcases settings_eq_error hsettings with ⟨_, _, -, -, heq⟩ | ⟨_, _, -, -, heq⟩ <;> cases heq
    · next hsettings =>
      split at h
      · next htext =>
        cases h
        obtain ⟨_, -, heq | heq⟩ := sourceText_eq_error htext <;> cases heq
      · next htext =>
        split at h
        · next hread =>
          cases h
          exact ⟨rfl, _, settings_eq_ok_iff.mp hsettings, _, sourceText_eq_ok_iff.mp htext, hread⟩
        · cases h
  · rintro ⟨rfl, settings, hsettings, text, htext, hread⟩
    simp only [settings_eq_ok_iff.mpr hsettings, sourceText_eq_ok_iff.mpr htext, hread]

theorem Reads.unique {other : Settings} {otherSchema : Schema}
    (h : command.Reads around settings schema) (hother : command.Reads around other otherSchema) :
    settings = other ∧ schema = otherSchema := by
  have := prepare_eq_ok_iff.mpr h
  rw [prepare_eq_ok_iff.mpr hother, Except.ok.injEq, Prod.mk.injEq] at this
  exact ⟨this.1.symm, this.2.symm⟩

/-- What hinders a run keeps it from its schema. -/
theorem Hindered.not_reads (h : command.Hindered around) :
    ¬command.Reads around settings schema := by
  rintro ⟨⟨⟨base, hbase, hmerged⟩, hcheck⟩, text, htext, hread⟩
  cases h with
  | unreadableSettings hconfig hcause =>
    cases hbase with
    | standard hnone => simp [hnone] at hconfig
    | file hsome hfile => simp_all
  | faultySettings hconfig hfile hfault =>
    cases hbase with
    | standard hnone => simp [hnone] at hconfig
    | file hsome hother hsettings => simp_all
  | unusable hother hunusable hproblem =>
    obtain rfl := hbase.unique hother
    rw [overrides_iff] at hmerged hunusable
    simp_all
  | unreadableSchema hcause => simp_all
  | faultySchema hother hfaulty hcontent hfault =>
    obtain rfl := hbase.unique hother
    rw [overrides_iff] at hmerged hfaulty
    simp_all

/-- A run does not get its schema exactly if something hinders it. -/
theorem exists_prepare_eq_error_iff :
    (∃ error, command.prepare around = .error error) ↔ command.Hindered around := by
  refine ⟨?_, fun h => ?_⟩
  · rintro ⟨error, herror⟩
    unfold prepare at herror
    split at herror
    · next hsettings =>
      rcases settings_eq_error hsettings with ⟨path, cause, hconfig, hcause, -⟩ |
        ⟨base, problem, hbase, hproblem, -⟩
      · unfold FileTree.readSettings at hcause
        split at hcause
        · next htext => exact .unreadableSettings hconfig htext
        · next htext =>
          split at hcause
          · next hread => exact .faultySettings hconfig htext hread
          · cases hcause
      · exact .unusable hbase (overrides_iff.mpr rfl) hproblem
    · next hsettings =>
      obtain ⟨⟨base, hbase, hmerged⟩, -⟩ := settings_eq_ok_iff.mp hsettings
      split at herror
      · next htext =>
        obtain ⟨cause, hcause, -⟩ := sourceText_eq_error htext
        exact .unreadableSchema hcause
      · next htext =>
        split at herror
        · next hread => exact .faultySchema hbase hmerged (sourceText_eq_ok_iff.mp htext) hread
        · cases herror
  · cases hprepare : command.prepare around with
    | error error => exact ⟨error, rfl⟩
    | ok prepared => exact absurd (prepare_eq_ok_iff.mp hprepare) h.not_reads

end Command

end NodeSchema
