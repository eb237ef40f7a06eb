import NodeSchema.Proofs.FixtureFiles
import NodeSchema.Proofs.PlainDirectory

/-!
# Blessing once is enough

When the runner blesses, it either finds the result of a fixture in the file where it is expected,
or puts it there (`Blesses`). No such file is the schema file or the settings of any fixture, and if
two paths have one such file, then they have the same schema file and settings and so the same
result. So a fixture that agrees with what is expected of it (`Settled`) does so still after another
one was blessed (`Settled.blesses`), and so do all fixtures after a run (`blessedRun_of_runAll`).

A fixture that agrees passes, whether the runner blesses or not, and nothing is changed
(`runOne_of_settled`). The files that were put into the tree do not change what the runner finds, so
a second run finds the same fixtures, and all of them pass.
-/

namespace NodeSchema

namespace Fixture

open FileTree

variable {t after : FileTree} {path stem extension actual : String} {directory : List String}

/-! ## Fixtures that agree -/

/-- The fixture agrees with what is expected of it. -/
def Settled (t : FileTree) (path : String) : Prop :=
  ∃ directory stem actual extension, Standing t path directory stem ∧
    Gives t directory stem actual extension ∧ t.HasText (fileOf directory stem extension) actual

theorem extension_mem (h : extension = "hpp" ∨ extension = "err") : extension ∈ extensions := by
  rcases h with rfl | rfl <;> decide

/-- What a fixture gives is what the runner finds to be its result. -/
theorem Standing.result_of_gives (h : Standing t path directory stem)
    (hgives : Gives t directory stem actual extension) :
    ∃ source settings, t.readText path = .ok source ∧ Fixture.settings t path = .ok settings ∧
      result settings source path = (actual, Path.withExtension path extension) := by
  obtain ⟨source, settings, hsource, hsettings, hresult⟩ := hgives
  rw [← h.readText_eq_ok_iff (by decide), h.withExtension_nodes] at hsource
  exact ⟨source, settings, hsource, h.settings_eq_ok_iff.mpr hsettings, by rw [result_eq, hresult]⟩

/-- A fixture that agrees passes, and nothing is changed. -/
theorem runOne_of_settled (h : Settled t path) (bless : Bool) :
    runOne t bless path = (t, .ok ⟨Path.stem path, .pass⟩) := by
  obtain ⟨directory, stem, actual, extension, hstanding, hgives, htext⟩ := h
  obtain ⟨source, settings, hsource, hsettings, hresult⟩ := hstanding.result_of_gives hgives
  have hexpected := (hstanding.readText_eq_ok_iff (extension_mem hgives.extension_eq)).mpr htext
  simp [runOne, hsource, hsettings, hresult, Fixture.judge, hexpected, Except.toOption]

theorem runAll_of_settled {paths : List String} (h : ∀ path ∈ paths, Settled t path)
    (bless : Bool) :
    runAll t bless paths = (t, .ok (paths.map fun path => ⟨Path.stem path, .pass⟩)) := by
  induction paths with
  | nil => rfl
  | cons path rest ih =>
    obtain ⟨hpath, hrest⟩ := List.forall_mem_cons.mp h
    rw [runAll, runOne_of_settled hpath]
    dsimp only
    rw [ih hrest, List.map_cons]

/-! ## One fixture -/

/-- One fixture is blessed : its result is expected already, or is put where it is expected. -/
inductive Blesses (t : FileTree) (directory : List String) (stem : String) :
    FileTree → Verdict → Prop
  | pass {actual extension : String} (hgives : Gives t directory stem actual extension)
      (htext : t.HasText (fileOf directory stem extension) actual) :
      Blesses t directory stem t .pass
  | blessed {actual extension : String} (hgives : Gives t directory stem actual extension)
      (hfree : t.find? (fileOf directory stem extension) ≠ some .directory) :
      Blesses t directory stem
        (t.put (fileOf directory stem extension) (.file actual.toUTF8)) .blessed

/-- The text of a file, from where its path leads. -/
theorem exists_of_readText {text : String} (h : t.readText path = .ok text) :
    ∃ place content, t.entryAt path = .ok (place, .file content) := by
  unfold readText at h
  split at h
  · cases h
  · cases h
  · next hentry => exact ⟨_, _, hentry⟩

theorem runOne_eq_ok {bless : Bool} {outcome : Outcome}
    (h : runOne t bless path = (after, .ok outcome)) :
    ∃ source settings verdict, t.readText path = .ok source ∧
      Fixture.settings t path = .ok settings ∧
      Fixture.judge t bless (result settings source path).1 (result settings source path).2 =
        (after, .ok verdict) ∧ outcome = ⟨Path.stem path, verdict⟩ := by
  unfold runOne at h
  split at h
  · cases h
  · next source hsource =>
    split at h
    · cases h
    · next settings hsettings =>
      dsimp only at h
      split at h
      · cases h
      · next verdict hjudge =>
        cases h
        exact ⟨source, settings, verdict, hsource, hsettings, hjudge, rfl⟩

/-- A result that is expected nowhere yet is put where it will be. -/
theorem runOne_of_missing {source : String} {settings : Settings} {cause : FileError}
    (hsource : t.readText path = .ok source) (hsettings : Fixture.settings t path = .ok settings)
    (hresult : resultOf settings source = (actual, extension))
    (hmissing : t.readText (Path.withExtension path extension) = .error cause)
    (hwritten : t.writeText (Path.withExtension path extension) actual = .ok after) :
    runOne t true path = (after, .ok ⟨Path.stem path, .blessed⟩) := by
  simp [runOne, hsource, hsettings, result_eq, hresult, Fixture.judge, hmissing, hwritten,
    Except.toOption]

/-- To bless is to find the result where it is expected, or to write it there. -/
theorem judge_bless_eq_ok {expectedPath : String} {verdict : Verdict}
    (h : judge t true actual expectedPath = (after, .ok verdict)) :
    (t.readText expectedPath = .ok actual ∧ after = t ∧ verdict = .pass) ∨
      (t.writeText expectedPath actual = .ok after ∧ verdict = .blessed) := by
  unfold judge at h
  dsimp only at h
  split at h
  · next hexpected =>
    cases h
    cases hread : t.readText expectedPath with
    | error cause => simp [hread, Except.toOption] at hexpected
    | ok text =>
      simp only [hread, Except.toOption, Option.some_inj] at hexpected
      exact .inl ⟨by rw [hexpected], rfl, rfl⟩
  · rw [if_pos rfl] at h
    split at h
    · cases h
    · next hwritten =>
      cases h
      exact .inr ⟨hwritten, rfl⟩

/-- A fixture that the runner does not stop at has a stem that leaves names for its files. With a
dot as its stem, the directory above would be taken for a file of settings. -/
theorem exists_standing (hformed : t.WellFormed) (hne : stem ≠ "")
    (hname : (Path.splitName path).2 = (stem ++ ".nodes").toList) {bless : Bool}
    {outcome : Outcome} (h : runOne t bless path = (after, .ok outcome)) :
    ∃ directory, Standing t path directory stem := by
  obtain ⟨source, settings, -, hsource, hsettings, -⟩ := runOne_eq_ok h
  obtain ⟨place, content, hentry⟩ := exists_of_readText hsource
  have hsplit : (Path.splitName path).2 = stem.toList ++ '.' :: "nodes".toList := by
    rw [hname]
    simp
  have hstem : stem.toList ≠ [] := by simpa using hne
  obtain ⟨directory, hliesIn, -, hlength⟩ := exists_liesIn hentry
    (by rw [hsplit]; exact isProperName_of_extension hstem (by decide))
  have hcheck := (entryAt_eq_ok hentry).1
  refine ⟨directory, hname, hne, ?_, hliesIn, hcheck, ?_⟩
  · rintro rfl
    have habove : t.entryAt (Path.withExtension path "json") =
        .ok (directory.dropLast, .directory) := by
      rw [Path.withExtension_of_dot hsplit (by decide) (by decide) (by decide) rfl]
      refine entryAt_of_follow (checkPath_renamed hcheck (by decide) ?_) ?_
        (hformed.find?_dropLast hliesIn.directory)
      · rw [hsplit]
        decide
      · rw [hliesIn.follow_renamed (by decide)]
        simp [follow, hliesIn.directory]
    rw [Fixture.settings] at hsettings
    simp [hasEntry, habove, FileTree.readSettings, readText] at hsettings
  · rwa [hname, String.ofList_toList] at hlength

/-- The runner blesses a fixture. -/
theorem blesses_of_runOne (hstanding : Standing t path directory stem) {outcome : Outcome}
    (h : runOne t true path = (after, .ok outcome)) :
    ∃ verdict, outcome = ⟨stem, verdict⟩ ∧ Blesses t directory stem after verdict := by
  obtain ⟨source, settings, verdict, hsource, hsettings, hjudge, rfl⟩ := runOne_eq_ok h
  refine ⟨verdict, by rw [hstanding.stem_eq], ?_⟩
  have hgives : Gives t directory stem (resultOf settings source).1
      (resultOf settings source).2 := by
    refine ⟨source, settings, ?_, hstanding.settings_eq_ok_iff.mp hsettings, rfl⟩
    rwa [← hstanding.readText_eq_ok_iff (by decide), hstanding.withExtension_nodes]
  have hextension := extension_mem hgives.extension_eq
  rw [result_eq] at hjudge
  rcases judge_bless_eq_ok hjudge with ⟨hexpected, rfl, rfl⟩ | ⟨hwritten, rfl⟩
  · exact .pass hgives ((hstanding.readText_eq_ok_iff hextension).mp hexpected)
  · rw [hstanding.writeText hextension] at hwritten
    split_ifs at hwritten with hfree
    obtain rfl := Except.ok.inj hwritten
    exact .blessed hgives hfree

section Blesses

variable {verdict : Verdict} (h : Blesses t directory stem after verdict)
include h

theorem Blesses.keeps : Keeps t after := by
  cases h with
  | pass => exact ⟨rfl, fun _ => id⟩
  | blessed hgives hfree => exact keeps_put hfree _

theorem Blesses.verdict_eq : verdict = .pass ∨ verdict = .blessed := by
  cases h with
  | pass => exact .inl rfl
  | blessed => exact .inr rfl

/-- No more than one file is changed, in which a result is expected. -/
theorem Blesses.find?_eq_or (place : List String) :
    after.find? place = t.find? place ∨
      verdict = .blessed ∧ ∃ extension content, (extension = "hpp" ∨ extension = "err") ∧
        place = fileOf directory stem extension ∧ after.find? place = some (.file content) := by
  cases h with
  | pass => exact .inl rfl
  | @blessed actual extension hgives hfree =>
    rw [find?_put (fileOf_ne_nil _ _ _)]
    split_ifs with hplace
    · exact .inr ⟨rfl, extension, _, hgives.extension_eq, hplace, rfl⟩
    · exact .inl rfl

variable (hstanding : Standing t path directory stem)
include hstanding

/-- The schema files and the settings of fixtures stay as they are. -/
theorem Blesses.find?_eq {other : List String} {stem' : String} (hne : stem' ≠ "")
    (hextension : extension = "nodes" ∨ extension = "json") :
    after.find? (fileOf other stem' extension) = t.find? (fileOf other stem' extension) := by
  refine (h.find?_eq_or _).resolve_right ?_
  rintro ⟨-, extension', content, hexpected, hplace, -⟩
  have hmem : extension ∈ extensions := by rcases hextension with rfl | rfl <;> decide
  obtain ⟨-, -, rfl⟩ :=
    fileOf_inj hne hstanding.ne_empty hmem (extension_mem hexpected) hplace
  rcases hextension with rfl | rfl <;> simp at hexpected

theorem Blesses.gives {other : List String} {stem' : String} (hne : stem' ≠ "")
    (hgives : Gives t other stem' actual extension) : Gives after other stem' actual extension :=
  hgives.congr (h.find?_eq hstanding hne (.inl rfl)) (h.find?_eq hstanding hne (.inr rfl))

/-- The fixture agrees then with what is expected of it. -/
theorem Blesses.settled : Settled after path := by
  have hkeeps := h.keeps
  have hsame {actual extension : String} (hgives : Gives t directory stem actual extension) :
      Gives after directory stem actual extension :=
    h.gives hstanding hstanding.ne_empty hgives
  cases h with
  | pass hgives htext => exact ⟨_, _, _, _, hstanding, hgives, htext⟩
  | blessed hgives hfree =>
    exact ⟨_, _, _, _, hstanding.keeps hkeeps, hsame hgives,
      hasText_put (fileOf_ne_nil _ _ _) _⟩

/-- The other fixtures agree as they did. If one of them has the file that was changed, then it has
the same schema file and the same settings, and so the same result. -/
theorem Settled.blesses {other : String} (hother : Settled t other) : Settled after other := by
  obtain ⟨directory', stem', actual', extension', hstanding', hgives', htext⟩ := hother
  refine ⟨directory', stem', actual', extension', hstanding'.keeps (h.keeps),
    h.gives hstanding hstanding'.ne_empty hgives', ?_⟩
  cases h with
  | pass => exact htext
  | @blessed actual extension hgives hfree =>
    -- two paths may lead to one schema file, and then they have one file with the result
    by_cases hplace : fileOf directory' stem' extension' = fileOf directory stem extension
    · obtain ⟨rfl, rfl, rfl⟩ := fileOf_inj hstanding'.ne_empty hstanding.ne_empty
        (extension_mem hgives'.extension_eq) (extension_mem hgives.extension_eq) hplace
      rw [hgives'.unique hgives]
      exact hasText_put (fileOf_ne_nil _ _ _) _
    · rwa [hasText_congr]
      rw [find?_put (fileOf_ne_nil _ _ _), if_neg hplace]

/-- The tree is still well formed, and the runner finds the same fixtures in it. -/
theorem Blesses.wellFormed (hformed : t.WellFormed) :
    after.WellFormed ∧ ∀ place, after.matching (Path.join place "*.nodes") =
      t.matching (Path.join place "*.nodes") := by
  cases h with
  | pass => exact ⟨hformed, fun _ => rfl⟩
  | @blessed actual extension hgives hfree =>
    have hname := hstanding.canBeRenamed (extension_mem hgives.extension_eq)
    have hslash : '/' ∉ (String.ofList (stem.toList ++ '.' :: extension.toList)).toList := by
      simpa using hname.slash
    have hother : ¬".nodes".toList <:+
        (String.ofList (stem.toList ++ '.' :: extension.toList)).toList := by
      rintro ⟨before, heq⟩
      have hlast := congrArg List.getLast? heq
      rcases hgives.extension_eq with rfl | rfl <;> simp [List.getLast?_cons] at hlast
    rw [fileOf_eq] at hfree ⊢
    exact ⟨hformed.put hstanding.liesIn.directory hname.proper hslash hfree _,
      matching_put hfree _ hname.proper hslash hformed.named hstanding.liesIn.directory hother⟩

end Blesses

/-! ## A run -/

/-- At the place is the file with the expected result of the fixture at a path : it is beside the
schema file and has the same stem. -/
def IsExpected (t : FileTree) (path : String) (place : List String) : Prop :=
  ∃ directory stem extension source content,
    t.entryAt path = .ok (directory ++ [stem ++ ".nodes"], .file source) ∧
      (extension = ".hpp" ∨ extension = ".err") ∧ place = directory ++ [stem ++ extension] ∧
      t.find? place = some (.file content)

/-- A run that blesses fixtures. All of them agree afterwards, those that agreed before still do,
and nothing is changed but files with expected results of the fixtures that are reported as
blessed. -/
structure BlessedRun (t : FileTree) (paths : List String) (after : FileTree)
    (outcomes : List Outcome) : Prop where
  keeps : Keeps t after
  matching : ∀ place, after.matching (Path.join place "*.nodes") =
    t.matching (Path.join place "*.nodes")
  settled : ∀ path, Settled t path ∨ path ∈ paths → Settled after path
  verdicts : List.Forall₂ (fun path outcome => outcome.name = Path.stem path ∧
    (outcome.verdict = .pass ∨ outcome.verdict = .blessed)) paths outcomes
  changed : ∀ place, after.find? place = t.find? place ∨
    ∃ entry ∈ paths.zip outcomes, entry.2.verdict = .blessed ∧ IsExpected after entry.1 place

/-- No fixture fails while the runner blesses. -/
theorem BlessedRun.isFailure_eq {paths : List String} {outcomes : List Outcome}
    (h : BlessedRun t paths after outcomes) :
    ∀ outcome ∈ outcomes, outcome.verdict.isFailure = false := by
  have hverdicts := h.verdicts
  clear h
  induction hverdicts with
  | nil => simp
  | cons hfirst _ ih =>
    refine List.forall_mem_cons.mpr ⟨?_, ih⟩
    rcases hfirst.2 with hpass | hblessed
    · rw [hpass]
      rfl
    · rw [hblessed]
      rfl

/-- The file of a fixture that agrees is the one with the expected result, wherever it was put. -/
theorem isExpected_of_settled (h : Settled t path) (hstanding : Standing t path directory stem)
    (hextension : extension = "hpp" ∨ extension = "err") {content : ByteArray}
    (hfind : t.find? (fileOf directory stem extension) = some (.file content)) :
    IsExpected t path (fileOf directory stem extension) := by
  obtain ⟨directory', stem', actual, _, hstanding', ⟨source, _, ⟨text, htext, -⟩, -⟩, -⟩ := h
  obtain rfl := hstanding.liesIn.unique hstanding'.liesIn
  obtain rfl := hstanding.stem_eq.symm.trans hstanding'.stem_eq
  have hentry := hstanding.entryAt (show "nodes" ∈ extensions by decide)
  rw [hstanding.withExtension_nodes, htext] at hentry
  have hdot (extension : String) : stem ++ "." ++ extension = stem ++ ("." ++ extension) :=
    String.append_assoc
  rw [fileOf, hdot] at hentry hfind ⊢
  refine ⟨directory, stem, "." ++ extension, text, content, hentry, ?_, rfl, hfind⟩
  rcases hextension with rfl | rfl
  · exact .inl rfl
  · exact .inr rfl

/-- A fixture that is blessed in front of a run that blesses others. -/
theorem BlessedRun.cons {mid : FileTree} {verdict : Verdict} {paths : List String}
    {outcomes : List Outcome} (hstanding : Standing t path directory stem)
    (hblesses : Blesses t directory stem mid verdict) (hformed : t.WellFormed)
    (hrun : BlessedRun mid paths after outcomes) :
    BlessedRun t (path :: paths) after (⟨stem, verdict⟩ :: outcomes) := by
  have hkeeps : Keeps t after := hblesses.keeps.trans hrun.keeps
  have hpath : Settled after path := hrun.settled _ (.inl (hblesses.settled hstanding))
  refine ⟨hkeeps, fun place => ?_, ?_, .cons ⟨hstanding.stem_eq.symm, hblesses.verdict_eq⟩
    hrun.verdicts, fun place => ?_⟩
  · exact (hrun.matching place).trans ((hblesses.wellFormed hstanding hformed).2 place)
  · rintro other (hother | hother)
    -- what agreed before the first fixture was blessed agrees when the others are
    · exact hrun.settled _ (.inl (hother.blesses hblesses hstanding))
    · rcases List.mem_cons.mp hother with rfl | hother
      · exact hpath
      · exact hrun.settled _ (.inr hother)
  · rcases hrun.changed place with heq | ⟨entry, hentry, hlater⟩
    · rcases hblesses.find?_eq_or place with hsame | ⟨rfl, extension, content, hextension,
        rfl, hfind⟩
      · exact .inl (heq.trans hsame)
      · exact .inr ⟨_, List.mem_cons_self, rfl, isExpected_of_settled hpath
          (hstanding.keeps hkeeps) hextension (heq.trans hfind)⟩
    · exact .inr ⟨entry, List.mem_cons_of_mem _ hentry, hlater⟩

theorem runAll_cons_eq_ok {bless : Bool} {paths : List String} {outcomes : List Outcome}
    (h : runAll t bless (path :: paths) = (after, .ok outcomes)) :
    ∃ mid outcome others, runOne t bless path = (mid, .ok outcome) ∧
      runAll mid bless paths = (after, .ok others) ∧ outcomes = outcome :: others := by
  rw [runAll] at h
  split at h
  · cases h
  · next mid outcome hone =>
    split at h
    · cases h
    · next others hall =>
      cases h
      exact ⟨mid, outcome, others, hone, hall, rfl⟩

/-- The fixtures of a run are blessed one after the other. -/
theorem blessedRun_of_runAll {paths : List String} {outcomes : List Outcome}
    (hformed : t.WellFormed) (hnames : ∀ path ∈ paths, ∃ stem : String, stem ≠ "" ∧
      (Path.splitName path).2 = (stem ++ ".nodes").toList)
    (h : runAll t true paths = (after, .ok outcomes)) : BlessedRun t paths after outcomes := by
  induction paths generalizing t outcomes with
  | nil =>
    cases h
    exact ⟨⟨rfl, fun _ => id⟩, fun _ => rfl, by simp, .nil, fun _ => .inl rfl⟩
  | cons path rest ih =>
    obtain ⟨⟨stem, hne, hname⟩, hrest⟩ := List.forall_mem_cons.mp hnames
    obtain ⟨mid, outcome, others, hone, hall, rfl⟩ := runAll_cons_eq_ok h
    obtain ⟨directory, hstanding⟩ := exists_standing hformed hne hname hone
    obtain ⟨verdict, rfl, hblesses⟩ := blesses_of_runOne hstanding hone
    have hmid := (hblesses.wellFormed hstanding hformed).1
    exact (ih hmid hrest hall).cons hstanding hblesses hformed

end Fixture

/-- Blessing once is enough. If the runner blesses the fixtures of a directory, all of which have
names, and is not stopped by an error, then each of them passes or is blessed, the run succeeds,
and nothing is changed but the files with the expected results of blessed fixtures. Whoever then
runs the runner on that directory, with or without blessing, has it find the same fixtures and
report that all of them pass; that run succeeds and changes nothing. -/
theorem bless_once_suffices {arguments : List String} {options : Fixture.Options}
    (hread : Fixture.readOptions arguments = .ok options) (hbless : options.bless = true)
    {around : Surroundings} (hformed : around.tree.WellFormed) {paths : List String}
    (hpaths : around.tree.matching (Path.join options.directory "*.nodes") = .ok paths)
    (hnames : ∀ path ∈ paths, ∃ stem : String, stem ≠ "" ∧
      (Path.splitName path).2 = (stem ++ ".nodes").toList)
    {after : FileTree} {outcomes : List Fixture.Outcome}
    (hrun : Fixture.runDirectory around.tree options.bless options.directory =
      (after, .ok outcomes)) :
    (Fixture.Shows options around.coloured outcomes (Fixture.run arguments around) ∧
      (Fixture.run arguments around).exit = 0 ∧
      (Fixture.run arguments around).tree = after ∧
      List.Forall₂ (fun path outcome => outcome.name = Path.stem path ∧
        (outcome.verdict = .pass ∨ outcome.verdict = .blessed)) paths outcomes ∧
      after.here = around.tree.here ∧
      ∀ place, after.find? place = around.tree.find? place ∨ ∃ entry ∈ paths.zip outcomes,
        entry.2.verdict = .blessed ∧ Fixture.IsExpected after entry.1 place) ∧
    ∀ {later : List String} {again : Fixture.Options} {second : Surroundings},
      Fixture.readOptions later = .ok again → again.directory = options.directory →
      second.tree = after →
        after.matching (Path.join options.directory "*.nodes") = .ok paths ∧
        Fixture.Shows again second.coloured (paths.map fun path => ⟨Path.stem path, .pass⟩)
          (Fixture.run later second) ∧
        (Fixture.run later second).exit = 0 ∧ (Fixture.run later second).tree = after := by
  have hall : Fixture.runAll around.tree true paths = (after, .ok outcomes) := by
    rwa [Fixture.runDirectory, hpaths, hbless] at hrun
  have hblessed := Fixture.blessedRun_of_runAll hformed hnames hall
  have hfirst : Fixture.run arguments around = options.run around := by
    rw [Fixture.run, hread]
  obtain ⟨hshows, htree⟩ := Fixture.shows_of_runDirectory hrun
  rw [hfirst]
  refine ⟨⟨hshows, hshows.exit_iff.mpr hblessed.isFailure_eq, htree, hblessed.verdicts,
    hblessed.keeps.here, hblessed.changed⟩, ?_⟩
  intro later again second hlater hdirectory hsecond
  subst hsecond
  have hfound := (hblessed.matching options.directory).trans hpaths
  have hagain : Fixture.runDirectory second.tree again.bless again.directory =
      (second.tree, .ok (paths.map fun path => ⟨Path.stem path, .pass⟩)) := by
    rw [Fixture.runDirectory, hdirectory, hfound]
    exact Fixture.runAll_of_settled (fun path hpath => hblessed.settled path (.inr hpath)) _
  have hlast : Fixture.run later second = again.run second := by
    rw [Fixture.run, hlater]
  obtain ⟨hpasses, hsame⟩ := Fixture.shows_of_runDirectory hagain
  rw [hlast]
  refine ⟨hfound, hpasses, hpasses.exit_iff.mpr fun outcome houtcome => ?_, hsame⟩
  obtain ⟨path, -, rfl⟩ := List.mem_map.mp houtcome
  rfl

/-- Of two fixtures without expected results, the first gives a header and the second has a node
that is there twice. Blessing makes the header and the code the expected results, and then both
fixtures pass. -/
theorem bless_once_suffices_two_fixtures :
    ∃ around : Surroundings,
      Fixture.Shows ⟨"dir", true, false⟩ false [⟨"a", .blessed⟩, ⟨"b", .blessed⟩]
        (Fixture.run ["dir", "--bless"] around) ∧
      (Fixture.run ["dir", "--bless"] around).tree.readText "dir/a.hpp" =
        .ok ((⟨[("leaf", ⟨"leaf", [], 1⟩)]⟩ : Schema).header .standard) ∧
      (Fixture.run ["dir", "--bless"] around).tree.readText "dir/b.err" =
        .ok "DuplicateNodeName\n" ∧
      ∀ second : Surroundings, second.tree = (Fixture.run ["dir", "--bless"] around).tree →
        Fixture.Shows ⟨"dir", false, false⟩ second.coloured [⟨"a", .pass⟩, ⟨"b", .pass⟩]
          (Fixture.run ["dir"] second) ∧
        (Fixture.run ["dir"] second).tree = second.tree := by
  let nodes : Schema := ⟨[("leaf", ⟨"leaf", [], 1⟩)]⟩
  let header := nodes.header .standard
  let around : Surroundings :=
    { stdin := ByteArray.empty
      coloured := false
      tree :=
        { entries :=
            [(["here"], .directory), (["here", "dir"], .directory),
             (["here", "dir", "a.nodes"], .file "leaf".toUTF8),
             (["here", "dir", "b.nodes"], .file "leaf\nleaf".toUTF8)]
          here := ["here"] } }
  have hread : Fixture.readOptions ["dir", "--bless"] = .ok ⟨"dir", true, false⟩ := by decide
  have hlater : Fixture.readOptions ["dir"] = .ok ⟨"dir", false, false⟩ := by decide
  have hformed : around.tree.WellFormed := by decide
  have hchildren : around.tree.children "dir" = ["a.nodes", "b.nodes"] := by
    change (["a.nodes", "b.nodes"] : List String).mergeSort _ = _
    exact List.mergeSort_of_pairwise (by decide)
  have hpaths : around.tree.matching (Path.join "dir" "*.nodes") =
      .ok ["dir/a.nodes", "dir/b.nodes"] := by
    rw [FileTree.matching_of_plain (by simp [FileTree.IsPlain]) (by decide) rfl, hchildren]
    decide
  have hnames : ∀ path ∈ ["dir/a.nodes", "dir/b.nodes"], ∃ stem : String, stem ≠ "" ∧
      (Path.splitName path).2 = (stem ++ ".nodes").toList := by
    simp only [List.forall_mem_cons, List.not_mem_nil, false_implies, implies_true, and_true]
    exact ⟨⟨"a", by decide⟩, ⟨"b", by decide⟩⟩
  let blessed := around.tree.put ["here", "dir", "a.hpp"] (.file header.toUTF8)
  let after := blessed.put ["here", "dir", "b.err"] (.file "DuplicateNodeName\n".toUTF8)
  have ha : Fixture.runOne around.tree true "dir/a.nodes" = (blessed, .ok ⟨"a", .blessed⟩) := by
    have hentry : around.tree.entryAt "dir/a.nodes" =
      .ok (["here", "dir", "a.nodes"], .file "leaf".toUTF8) := rfl
    have hmissing : around.tree.readText (Path.withExtension "dir/a.nodes" "hpp") =
      .error .notFound := rfl
    have hschema : Schema.read .standard "leaf" = .ok nodes := by decide
    exact Fixture.runOne_of_missing (FileTree.readText_of_entryAt hentry) rfl
      (by rw [Fixture.resultOf, hschema]) hmissing rfl
  have hb : Fixture.runOne blessed true "dir/b.nodes" = (after, .ok ⟨"b", .blessed⟩) := by
    have hentry : blessed.entryAt "dir/b.nodes" =
      .ok (["here", "dir", "b.nodes"], .file "leaf\nleaf".toUTF8) := rfl
    have hmissing : blessed.readText (Path.withExtension "dir/b.nodes" "err") =
      .error .notFound := rfl
    have hfault : Schema.read .standard "leaf\nleaf" =
      .error ⟨2, "leaf", .duplicateNode "leaf" 1⟩ := by decide
    exact Fixture.runOne_of_missing (FileTree.readText_of_entryAt hentry) rfl
      (by rw [Fixture.resultOf, hfault]; rfl) hmissing rfl
  have hrun : Fixture.runDirectory around.tree true "dir" =
      (after, .ok [⟨"a", .blessed⟩, ⟨"b", .blessed⟩]) := by
    simp only [Fixture.runDirectory, hpaths, Fixture.runAll, ha, hb]
  obtain ⟨⟨hshows, -, htree, -⟩, hsecond⟩ :=
    bless_once_suffices hread rfl hformed hpaths hnames hrun
  have hheader : after.entryAt "dir/a.hpp" =
    .ok (["here", "dir", "a.hpp"], .file header.toUTF8) := rfl
  have hcode : after.entryAt "dir/b.err" =
    .ok (["here", "dir", "b.err"], .file "DuplicateNodeName\n".toUTF8) := rfl
  refine ⟨around, hshows, ?_, ?_, fun second hsame => ?_⟩
  · rw [htree]
    exact FileTree.readText_of_entryAt hheader
  · rw [htree]
    exact FileTree.readText_of_entryAt hcode
  · rw [htree] at hsame
    obtain ⟨-, hpasses, -, hkept⟩ := hsecond hlater rfl hsame
    exact ⟨hpasses, hkept.trans hsame.symm⟩

end NodeSchema
