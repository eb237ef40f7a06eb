import NodeSchema.Fixture
import NodeSchema.Proofs.Arguments
import NodeSchema.Proofs.Matching
import NodeSchema.Proofs.Run

/-!
# The fixture runner and the generator

The fixture runner does not call the generator, but it judges a fixture as if it did : a fixture
passes exactly if the run of the generator for it writes the expected header, or fails with the
expected fault (`Fixture.Agrees`). Where the generator fails for another reason, there is nothing
to compare, and the runner stops with an error. Both find the same settings
(`Fixture.settings_eq_ok_iff`), so both fail in this way for the same fixtures
(`Fixture.comparable_iff`).

`Fixture.runOne_judged` says this for one fixture. The tree stays as it is, so it holds for one
fixture after the other (`Fixture.runAll_judged`), and `runner_agrees` states it for the runner.
-/

namespace NodeSchema

/-- The run of the generator ends with an error before it writes anything. -/
def Generator.FailsWith (arguments : List String) (around : Surroundings)
    (error : GeneratorError) : Prop :=
  ∃ invocation, Invocation.read arguments = .ok invocation ∧
    invocation.command.isDryRun = false ∧ invocation.command.prepare around = .error error

theorem Generator.run_of_failsWith {arguments : List String} {around : Surroundings}
    {error : GeneratorError} (h : Generator.FailsWith arguments around error) :
    Generator.run arguments around = ⟨1, "", error.line around.coloured, around.tree⟩ := by
  obtain ⟨invocation, hread, hreal, hprepare⟩ := h
  rw [Generator.run_of_read hread, Invocation.run_of_prepare_error hreal hprepare]

namespace Fixture

/-! ## The run of the generator for a fixture -/

/-- The arguments for the header of a fixture : its path, and the settings file beside it if
there is one. -/
def arguments (t : FileTree) (path : String) : List String :=
  ["cpp", "--input=" ++ path] ++
    if t.hasEntry (Path.withExtension path "json") then
      ["--config=" ++ Path.withExtension path "json"]
    else []

/-- The run of the generator for a fixture gives the expected result : the header in the file
with the extension `hpp`, or a fault whose code is in the one with the extension `err`. -/
inductive Agrees (around : Surroundings) (path : String) : Prop
  | header (hexit : (Generator.run (arguments around.tree path) around).exit = 0)
      (hexpected : around.tree.readText (Path.withExtension path "hpp") =
        .ok (Generator.run (arguments around.tree path) around).stdout)
  | fault {fault : Fault}
      (hfails : Generator.FailsWith (arguments around.tree path) around (.schema path fault))
      (hexpected : around.tree.readText (Path.withExtension path "err") =
        .ok (fault.reason.code ++ "\n"))

/-- The run of the generator for a fixture gives a header, or fails because of a fault of the
schema. -/
def Comparable (around : Surroundings) (path : String) : Prop :=
  (Generator.run (arguments around.tree path) around).exit = 0 ∨
    ∃ fault, Generator.FailsWith (arguments around.tree path) around (.schema path fault)

/-- The outcome of a fixture is that of the generator's run for it. -/
structure Judged (around : Surroundings) (path : String) (outcome : Outcome) : Prop where
  name : outcome.name = Path.stem path
  pass_iff : outcome.verdict = .pass ↔ Agrees around path
  isFailure_iff : outcome.verdict.isFailure = true ↔ ¬Agrees around path

/-- The options of the generator for a fixture. -/
def source (t : FileTree) (path : String) : InputOptions where
  input := path
  config :=
    if t.hasEntry (Path.withExtension path "json") then some (Path.withExtension path "json")
    else none
  separator := none
  unionName := none
  visitorName := none

theorem withExtension_ne_empty (path extension : String) :
    Path.withExtension path extension ≠ "" := by
  have key (directory stem dotted : List Char) :
      (if dotted = ['.'] || dotted = ['.', '.'] then String.ofList (directory ++ dotted)
        else String.ofList (directory ++ stem) ++ "." ++ extension) ≠ "" := by
    intro hempty
    have hlist := congrArg String.toList hempty
    split_ifs at hlist with hdots
    · rw [Bool.or_eq_true, decide_eq_true_eq, decide_eq_true_eq] at hdots
      rcases hdots with rfl | rfl <;> simp at hlist
    · simp at hlist
  exact key _ _ _

/-- The generator reads the arguments for a fixture. -/
theorem read_arguments (t : FileTree) (path : String) :
    Invocation.read (arguments t path) = .ok ⟨false, .plainCpp (source t path)⟩ := by
  have hconfig : (source t path).config ≠ some "" := by
    unfold source
    dsimp only
    split_ifs
    · simpa using withExtension_ne_empty path "json"
    · simp
  have hwritten : Invocation.arguments ⟨false, .plainCpp (source t path)⟩ = arguments t path := by
    unfold arguments source
    split_ifs
    · rfl
    · rfl
  rw [← hwritten]
  exact Invocation.read_arguments hconfig (by simp [Command.plainCpp, Command.out?])

/-! ## One fixture -/

section One

variable {around : Surroundings} {path : String} {settings : Settings} {schema : Schema}

/-- Without other options, the settings of a run are those of its file, or the standard ones. -/
theorem applyTo_plainCpp (t : FileTree) (path : String) (settings : Settings) :
    (Command.plainCpp (source t path)).applyTo settings = settings := by
  simp [Command.plainCpp, Command.applyTo, HeaderOptions.applyTo, InputOptions.applyTo, source]

/-- Settings that come from a file have passed their check. -/
theorem check_of_readSettings {t : FileTree} {path : String} {settings : Settings}
    (h : t.readSettings path = .ok settings) : settings.check = .ok () := by
  unfold FileTree.readSettings at h
  split at h
  · cases h
  · split at h
    · cases h
    · next hread =>
      cases h
      unfold Settings.read at hread
      dsimp only at hread
      split at hread
      · cases hread
      · split at hread
        · cases hread
        · next hcheck =>
          cases hread
          exact hcheck

/-- The runner and the generator find the same settings for a fixture. -/
theorem settings_eq_ok_iff {t : FileTree} :
    Fixture.settings t path = .ok settings ↔
      (Command.plainCpp (source t path)).HasSettings t settings := by
  rw [← Command.settings_eq_ok_iff]
  have hstandard : Settings.standard.check = .ok () := by decide
  unfold Fixture.settings Command.settings InputOptions.baseSettings
  simp only [applyTo_plainCpp]
  by_cases hentry : t.hasEntry (Path.withExtension path "json") = true
  · have hconfig : (Command.plainCpp (source t path)).source.config =
        some (Path.withExtension path "json") := if_pos hentry
    rw [if_pos hentry, hconfig]
    dsimp only
    cases hfile : t.readSettings (Path.withExtension path "json") with
    | error cause => simp
    | ok found => simp [check_of_readSettings hfile]
  · have hconfig : (Command.plainCpp (source t path)).source.config = none := if_neg hentry
    simp [hentry, hconfig, hstandard]

/-- Without blessing, a result is compared with the expected one. -/
theorem judge_without_bless (t : FileTree) (actual expectedPath : String) :
    ∃ verdict, judge t false actual expectedPath = (t, .ok verdict) ∧
      (verdict = .pass ↔ t.readText expectedPath = .ok actual) ∧
      (verdict.isFailure = true ↔ t.readText expectedPath ≠ .ok actual) := by
  unfold judge
  cases hexpected : t.readText expectedPath with
  | error cause => exact ⟨.missing expectedPath, by simp [Except.toOption, Verdict.isFailure]⟩
  | ok text =>
    by_cases htext : text = actual
    · exact ⟨.pass, by simp [Except.toOption, Verdict.isFailure, htext]⟩
    · exact ⟨.differs (.ofTexts text actual), by simp [Except.toOption, Verdict.isFailure, htext]⟩

/-- A fixture with a result is judged by it. -/
theorem runOne_of_result {t : FileTree} {text actual expectedPath : String}
    (htext : t.readText path = .ok text) (hsettings : Fixture.settings t path = .ok settings)
    (hresult : result settings text path = (actual, expectedPath))
    (hagrees : Agrees around path ↔ t.readText expectedPath = .ok actual) :
    ∃ outcome, runOne t false path = (t, .ok outcome) ∧ Judged around path outcome := by
  obtain ⟨verdict, hjudge, hpass, hfailure⟩ := judge_without_bless t actual expectedPath
  refine ⟨⟨Path.stem path, verdict⟩, ?_, rfl, hpass.trans hagrees.symm, ?_⟩
  · simp only [runOne, htext, hsettings, hresult, hjudge]
  · rw [hfailure, ne_eq, hagrees]

/-- The run of the generator for a fixture fails as its preparation does. -/
theorem failsWith_iff {error : GeneratorError} :
    Generator.FailsWith (arguments around.tree path) around error ↔
      (Command.plainCpp (source around.tree path)).prepare around = .error error := by
  have hread := read_arguments around.tree path
  refine ⟨?_, fun h => ⟨_, hread, rfl, h⟩⟩
  rintro ⟨invocation, hinvocation, -, hprepare⟩
  rw [hread, Except.ok.injEq] at hinvocation
  subst hinvocation
  exact hprepare

theorem run_of_prepare_ok
    (h : (Command.plainCpp (source around.tree path)).prepare around = .ok (settings, schema)) :
    (Generator.run (arguments around.tree path) around).exit = 0 ∧
      (Generator.run (arguments around.tree path) around).stdout = schema.header settings := by
  rw [Generator.run_of_read (read_arguments around.tree path),
    @Invocation.run_without_file ⟨false, .plainCpp (source around.tree path)⟩ around rfl _ _ h rfl]
  exact ⟨rfl, rfl⟩

theorem exit_of_prepare_error {error : GeneratorError}
    (h : (Command.plainCpp (source around.tree path)).prepare around = .error error) :
    (Generator.run (arguments around.tree path) around).exit = 1 := by
  rw [Generator.run_of_failsWith (failsWith_iff.mpr h)]

/-- With a header, only the expected header counts. -/
theorem agrees_iff_of_prepare_ok
    (h : (Command.plainCpp (source around.tree path)).prepare around = .ok (settings, schema)) :
    Agrees around path ↔
      around.tree.readText (Path.withExtension path "hpp") = .ok (schema.header settings) := by
  obtain ⟨hexit, hstdout⟩ := run_of_prepare_ok h
  refine ⟨?_, fun hexpected => .header hexit (by rw [hexpected, hstdout])⟩
  rintro (⟨-, hexpected⟩ | ⟨hfails, -⟩)
  · rw [hexpected, hstdout]
  · rw [failsWith_iff, h] at hfails
    cases hfails

/-- With a fault, only the expected code counts. -/
theorem agrees_iff_of_fault {fault : Fault}
    (h : (Command.plainCpp (source around.tree path)).prepare around =
      .error (.schema path fault)) :
    Agrees around path ↔
      around.tree.readText (Path.withExtension path "err") = .ok (fault.reason.code ++ "\n") := by
  refine ⟨?_, fun hexpected => .fault (failsWith_iff.mpr h) hexpected⟩
  rintro (⟨hexit, -⟩ | ⟨hfails, hexpected⟩)
  · rw [exit_of_prepare_error h] at hexit
    cases hexit
  · rw [failsWith_iff, h] at hfails
    cases hfails
    exact hexpected

/-- There is something to compare exactly if settings and text of the fixture can be read. -/
theorem comparable_iff (hpath : path ≠ "-") (around : Surroundings) :
    Comparable around path ↔ ∃ settings text,
      (Command.plainCpp (source around.tree path)).HasSettings around.tree settings ∧
        around.tree.readText path = .ok text := by
  have hcontent : (Command.plainCpp (source around.tree path)).source.content around =
      around.tree.readText path := if_neg hpath
  have hlabel : (Command.plainCpp (source around.tree path)).source.label = path := if_neg hpath
  refine ⟨?_, ?_⟩
  · rintro (hexit | ⟨fault, hfails⟩)
    · cases hprepare : (Command.plainCpp (source around.tree path)).prepare around with
      | error error =>
        rw [exit_of_prepare_error hprepare] at hexit
        cases hexit
      | ok prepared =>
        obtain ⟨hready, text, htext, -⟩ := Command.prepare_eq_ok_iff.mp hprepare
        exact ⟨_, text, hready, hcontent.symm.trans htext⟩
    · obtain ⟨-, settings, hready, text, htext, -⟩ :=
        Command.prepare_eq_schema_iff.mp (failsWith_iff.mp hfails)
      exact ⟨settings, text, hready, hcontent.symm.trans htext⟩
  · rintro ⟨settings, text, hready, htext⟩
    cases hread : Schema.read settings text with
    | error fault =>
      exact .inr ⟨fault, failsWith_iff.mpr (Command.prepare_eq_schema_iff.mpr
        ⟨hlabel.symm, settings, hready, text, hcontent.trans htext, hread⟩)⟩
    | ok schema =>
      exact .inl (run_of_prepare_ok (Command.prepare_eq_ok_iff.mpr
        ⟨hready, text, hcontent.trans htext, hread⟩)).1

/-- A fixture that gives something to compare is judged by the run of the generator for it. -/
theorem runOne_judged (hpath : path ≠ "-") (h : Comparable around path) :
    ∃ outcome, runOne around.tree false path = (around.tree, .ok outcome) ∧
      Judged around path outcome := by
  obtain ⟨settings, text, hready, htext⟩ := (comparable_iff hpath around).mp h
  have hcontent : (Command.plainCpp (source around.tree path)).source.content around = .ok text :=
    (if_neg hpath).trans htext
  have hlabel : (Command.plainCpp (source around.tree path)).source.label = path := if_neg hpath
  have hsettings : Fixture.settings around.tree path = .ok settings :=
    settings_eq_ok_iff.mpr hready
  cases hread : Schema.read settings text with
  | error fault =>
    have hprepare := Command.prepare_eq_schema_iff.mpr
      ⟨hlabel.symm, settings, hready, text, hcontent, hread⟩
    have hresult : result settings text path =
        (fault.reason.code ++ "\n", Path.withExtension path "err") := by
      rw [result, hread]
    exact runOne_of_result htext hsettings hresult (agrees_iff_of_fault hprepare)
  | ok schema =>
    have hprepare := Command.prepare_eq_ok_iff.mpr ⟨hready, text, hcontent, hread⟩
    have hresult : result settings text path =
        (schema.header settings, Path.withExtension path "hpp") := by
      rw [result, hread]
    exact runOne_of_result htext hsettings hresult (agrees_iff_of_prepare_ok hprepare)

/-- A fixture that gives nothing to compare ends with an error. -/
theorem runOne_error (hpath : path ≠ "-") (h : ¬Comparable around path) :
    ∃ error, runOne around.tree false path = (around.tree, .error error) := by
  cases htext : around.tree.readText path with
  | error cause => exact ⟨.unreadable path cause, by simp only [runOne, htext]⟩
  | ok text =>
    cases hsettings : Fixture.settings around.tree path with
    | error error => exact ⟨error, by simp only [runOne, htext, hsettings]⟩
    | ok settings =>
      exact absurd ((comparable_iff hpath around).mpr
        ⟨settings, text, settings_eq_ok_iff.mp hsettings, htext⟩) h

end One

/-! ## All fixtures -/

section All

variable {around : Surroundings} {paths : List String} (hpaths : ∀ path ∈ paths, path ≠ "-")
include hpaths

/-- Fixtures that give something to compare are judged one after the other. -/
theorem runAll_judged (h : ∀ path ∈ paths, Comparable around path) :
    ∃ outcomes, runAll around.tree false paths = (around.tree, .ok outcomes) ∧
      List.Forall₂ (Judged around) paths outcomes := by
  induction paths with
  | nil => exact ⟨[], rfl, .nil⟩
  | cons path rest ih =>
    obtain ⟨hpath, hrest⟩ := List.forall_mem_cons.mp hpaths
    obtain ⟨hfirst, hothers⟩ := List.forall_mem_cons.mp h
    obtain ⟨outcome, hone, hjudged⟩ := runOne_judged hpath hfirst
    obtain ⟨outcomes, hall, houtcomes⟩ := ih hrest hothers
    exact ⟨outcome :: outcomes, by simp only [runAll, hone, hall], .cons hjudged houtcomes⟩

/-- A fixture that gives nothing to compare ends the run. -/
theorem runAll_error (h : ∃ path ∈ paths, ¬Comparable around path) :
    ∃ error, runAll around.tree false paths = (around.tree, .error error) := by
  induction paths with
  | nil => simp at h
  | cons path rest ih =>
    obtain ⟨hpath, hrest⟩ := List.forall_mem_cons.mp hpaths
    by_cases hfirst : Comparable around path
    · have hothers : ∃ path ∈ rest, ¬Comparable around path := by
        simpa [hfirst] using h
      obtain ⟨outcome, hone, -⟩ := runOne_judged hpath hfirst
      obtain ⟨error, hall⟩ := ih hrest hothers
      exact ⟨error, by simp only [runAll, hone, hall]⟩
    · obtain ⟨error, hone⟩ := runOne_error hpath hfirst
      exact ⟨error, by simp only [runAll, hone]⟩

end All

/-- A report that shows the outcomes of some fixtures : on the standard output for programs, or
else line by line. It succeeds exactly if no fixture has failed. -/
structure Shows (options : Options) (coloured : Bool) (outcomes : List Outcome)
    (report : Report) : Prop where
  exit_iff : report.exit = 0 ↔ ∀ outcome ∈ outcomes, outcome.verdict.isFailure = false
  stdout : report.stdout =
    if options.json then (Json.arr (outcomes.map Outcome.toJson)).pretty ++ "\n" else ""
  stderr : report.stderr =
    (if options.json then "" else String.join (outcomes.map (Outcome.line coloured)))
      ++ summary outcomes

theorem shows_of_runDirectory {options : Options} {around : Surroundings} {t : FileTree}
    {outcomes : List Outcome}
    (h : runDirectory around.tree options.bless options.directory = (t, .ok outcomes)) :
    Shows options around.coloured outcomes (options.run around) ∧
      (options.run around).tree = t := by
  have hexit : (if outcomes.any fun outcome => outcome.verdict.isFailure then 1 else 0) = 0 ↔
      ∀ outcome ∈ outcomes, outcome.verdict.isFailure = false := by
    simp
  unfold Options.run
  rw [h]
  dsimp only
  cases hjson : options.json with
  | true => exact ⟨⟨hexit, by simp [hjson], by simp [hjson]⟩, rfl⟩
  | false => exact ⟨⟨hexit, by simp [hjson], by simp [hjson]⟩, rfl⟩

end Fixture

/-- The runner, when it does not bless, reports on each path that its pattern finds, in their
order, if the generator's run for each of them gives a header or fails with a fault of the
schema. A fixture passes if that run agrees with what is expected, and fails otherwise; the run
of the runner succeeds if no fixture fails. Where the generator fails for another reason, no
outcomes are reported and the runner fails. No file is changed. -/
theorem runner_agrees {arguments : List String} {options : Fixture.Options}
    (hread : Fixture.readOptions arguments = .ok options) (hbless : options.bless = false)
    {around generator : Surroundings} (htree : generator.tree = around.tree) {paths : List String}
    (hpaths : around.tree.matching (Path.join options.directory "*.nodes") = .ok paths) :
    ((∀ path ∈ paths, Fixture.Comparable generator path) → ∃ outcomes,
      List.Forall₂ (Fixture.Judged generator) paths outcomes ∧
        Fixture.Shows options around.coloured outcomes (Fixture.run arguments around) ∧
        (Fixture.run arguments around).tree = around.tree) ∧
    ((∃ path ∈ paths, ¬Fixture.Comparable generator path) → ∃ error : Fixture.RunError,
      Fixture.run arguments around = ⟨1, "", error.text, around.tree⟩) := by
  have hnamed : ∀ path ∈ paths, path ≠ "-" := by
    rintro path hpath rfl
    have hsuffix := FileTree.suffix_of_mem_matching hpaths "-" hpath
    exact absurd hsuffix.length_le (by decide)
  have hrun : Fixture.run arguments around = options.run around := by
    rw [Fixture.run, hread]
  have hall : Fixture.runDirectory around.tree options.bless options.directory =
      Fixture.runAll generator.tree false paths := by
    rw [Fixture.runDirectory, hpaths, hbless, htree]
  rw [hrun]
  refine ⟨fun h => ?_, fun h => ?_⟩
  · obtain ⟨outcomes, houtcomes, hjudged⟩ := Fixture.runAll_judged hnamed h
    rw [houtcomes, htree] at hall
    obtain ⟨hshows, hsame⟩ := Fixture.shows_of_runDirectory hall
    exact ⟨outcomes, hjudged, hshows, hsame⟩
  · obtain ⟨error, herror⟩ := Fixture.runAll_error hnamed h
    rw [herror, htree] at hall
    exact ⟨error, by rw [Fixture.Options.run, hall]⟩

/-- A fixture with its header beside it passes, and one with a node that is there twice, and no
expected code, fails. -/
theorem runner_agrees_on_two_fixtures :
    ∃ (around : Surroundings) (passing failing : Fixture.Outcome),
      Fixture.readOptions ["dir"] = .ok ⟨"dir", false, false⟩ ∧
      around.tree.matching (Path.join "dir" "*.nodes") = .ok ["dir/a.nodes", "dir/b.nodes"] ∧
      Fixture.Comparable around "dir/a.nodes" ∧ Fixture.Comparable around "dir/b.nodes" ∧
      passing = ⟨"a", .pass⟩ ∧ failing.verdict.isFailure = true ∧
      Fixture.Shows ⟨"dir", false, false⟩ false [passing, failing] (Fixture.run ["dir"] around) ∧
      (Fixture.run ["dir"] around).tree = around.tree := by
  let nodes : Schema := ⟨[("leaf", ⟨"leaf", [], 1⟩)]⟩
  let around : Surroundings :=
    { stdin := ByteArray.empty
      coloured := false
      tree :=
        { entries :=
            [(["here"], .directory), (["here", "dir"], .directory),
             (["here", "dir", "a.hpp"], .file (nodes.header .standard).toUTF8),
             (["here", "dir", "a.nodes"], .file "leaf".toUTF8),
             (["here", "dir", "b.nodes"], .file "leaf\nleaf".toUTF8)]
          here := ["here"] } }
  have hread : Fixture.readOptions ["dir"] = .ok ⟨"dir", false, false⟩ := by decide
  -- the names in the directory are in order, so sorting leaves them as they are
  have hchildren : around.tree.children "dir" = ["a.hpp", "a.nodes", "b.nodes"] := by
    change (["a.hpp", "a.nodes", "b.nodes"] : List String).mergeSort _ = _
    exact List.mergeSort_of_pairwise (by decide)
  have hmatching : around.tree.matching (Path.join "dir" "*.nodes") =
      .ok ["dir/a.nodes", "dir/b.nodes"] := by
    have hwhole : Pattern.read "dir/*.nodes".toList =
        .ok ("dir/".toList.map .literal ++ FileTree.nodesPattern) := by
      simp [Pattern.read, Pattern.readFrom, FileTree.nodesPattern]
    have hcomponents : FileTree.components "dir/*.nodes".toList =
        ["dir".toList, "*.nodes".toList] := by decide
    have hparts : ["dir".toList, "*.nodes".toList].mapM Pattern.read =
        .ok ["dir".toList.map .literal, FileTree.nodesPattern] := by
      simp [Pattern.read, Pattern.readFrom, FileTree.nodesPattern, bind, Except.bind, pure,
        Except.pure]
    have hexpand : ((around.tree.children "dir").filter fun name =>
        FileTree.nodesPattern.matchesName name.toList).flatMap
          (fun name => around.tree.expand [] (FileTree.below "dir" name)) =
        ["dir/a.nodes", "dir/b.nodes"] := by
      rw [hchildren]
      decide
    rw [show Path.join "dir" "*.nodes" = "dir/*.nodes" by decide, FileTree.matching, hwhole,
      hcomponents, hparts]
    exact congrArg Except.ok hexpand
  have hasSettings (path : String)
      (hnone : (Fixture.source around.tree path).config = none) :
      (Command.plainCpp (Fixture.source around.tree path)).HasSettings around.tree .standard :=
    ⟨⟨.standard, .standard hnone, by constructor <;> rfl⟩, by decide⟩
  have ha : around.tree.entryAt "dir/a.nodes" =
    .ok (["here", "dir", "a.nodes"], .file "leaf".toUTF8) := rfl
  have hb : around.tree.entryAt "dir/b.nodes" =
    .ok (["here", "dir", "b.nodes"], .file "leaf\nleaf".toUTF8) := rfl
  have hheader : around.tree.entryAt "dir/a.hpp" =
    .ok (["here", "dir", "a.hpp"], .file (nodes.header .standard).toUTF8) := rfl
  have hprepareA : (Command.plainCpp (Fixture.source around.tree "dir/a.nodes")).prepare around =
      .ok (.standard, nodes) :=
    Command.prepare_eq_ok_iff.mpr ⟨hasSettings _ rfl, "leaf",
      InputOptions.content_of_entryAt (by decide) ha, by decide⟩
  have hprepareB : (Command.plainCpp (Fixture.source around.tree "dir/b.nodes")).prepare around =
      .error (.schema "dir/b.nodes" ⟨2, "leaf", .duplicateNode "leaf" 1⟩) :=
    Command.prepare_eq_schema_iff.mpr ⟨rfl, _, hasSettings _ rfl, "leaf\nleaf",
      InputOptions.content_of_entryAt (by decide) hb, by decide⟩
  have hcomparableA : Fixture.Comparable around "dir/a.nodes" :=
    .inl (Fixture.run_of_prepare_ok hprepareA).1
  have hcomparableB : Fixture.Comparable around "dir/b.nodes" :=
    .inr ⟨_, Fixture.failsWith_iff.mpr hprepareB⟩
  obtain ⟨outcomes, hjudged, hshows, htree⟩ :=
    (runner_agrees hread rfl (show around.tree = around.tree from rfl) hmatching).1
      (by simp [hcomparableA, hcomparableB])
  have hagreesA : Fixture.Agrees around "dir/a.nodes" :=
    (Fixture.agrees_iff_of_prepare_ok hprepareA).mpr (FileTree.readText_of_entryAt hheader)
  have hagreesB : ¬Fixture.Agrees around "dir/b.nodes" := by
    have hmissing : around.tree.readText "dir/b.err" = .error .notFound := rfl
    rw [Fixture.agrees_iff_of_fault hprepareB,
      show Path.withExtension "dir/b.nodes" "err" = "dir/b.err" by decide, hmissing]
    simp
  obtain ⟨⟨name, verdict⟩, rest, hjudgedA, hrest, rfl⟩ := List.forall₂_cons_left_iff.mp hjudged
  obtain ⟨failing, others, hjudgedB, hothers, rfl⟩ := List.forall₂_cons_left_iff.mp hrest
  obtain rfl := List.forall₂_nil_left_iff.mp hothers
  obtain rfl : name = "a" := hjudgedA.name.trans (by decide)
  obtain rfl : verdict = .pass := hjudgedA.pass_iff.mpr hagreesA
  exact ⟨around, _, failing, hread, hmatching, hcomparableA, hcomparableB, rfl,
    hjudgedB.isFailure_iff.mpr hagreesB, hshows, htree⟩

end NodeSchema
