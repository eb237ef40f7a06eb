import NodeSchema.Proofs.Fixtures
import NodeSchema.Proofs.NewFile
import NodeSchema.Proofs.Siblings

/-!
# The files of a fixture

The files of a fixture stand in one directory and have one stem (`Fixture.fileOf`). If the runner
gets as far as to judge a fixture, then its stem leaves names for all of them (`exists_standing`),
and what the runner does depends on nothing but the entries at their places : the result is made of
the schema file and the settings (`Gives`), and is compared with the text in the file for it, or
put there.
-/

namespace NodeSchema

namespace FileTree

/-- There is a text in the file at a place. -/
def HasText (t : FileTree) (place : List String) (text : String) : Prop :=
  ∃ content, t.find? place = some (.file content) ∧ decodeText content = .ok text

variable {t after : FileTree} {place : List String} {text : String}

theorem HasText.unique {other : String} (h : t.HasText place text)
    (hother : t.HasText place other) : text = other := by
  obtain ⟨content, hfind, hdecode⟩ := h
  obtain ⟨content', hfind', hdecode'⟩ := hother
  rw [hfind] at hfind'
  cases hfind'
  exact Except.ok.inj (hdecode.symm.trans hdecode')

theorem hasText_congr (h : after.find? place = t.find? place) :
    after.HasText place text ↔ t.HasText place text := by
  rw [HasText, HasText, h]

theorem hasText_put (hne : place ≠ []) (text : String) :
    (t.put place (.file text.toUTF8)).HasText place text :=
  ⟨_, by rw [find?_put hne, if_pos rfl], decodeText_toUTF8 text⟩

end FileTree

namespace Fixture

open FileTree

/-! ## The files of a fixture -/

/-- The place of the file of a fixture that has the given extension. -/
def fileOf (directory : List String) (stem extension : String) : List String :=
  directory ++ [stem ++ "." ++ extension]

theorem fileOf_ne_nil (directory : List String) (stem extension : String) :
    fileOf directory stem extension ≠ [] := by
  simp [fileOf]

/-- The extensions of the files of a fixture. -/
def extensions : List String :=
  ["nodes", "json", "hpp", "err"]

theorem fileOf_inj {directory directory' : List String} {stem stem' extension extension' : String}
    (hstem : stem ≠ "") (hstem' : stem' ≠ "") (hextension : extension ∈ extensions)
    (hextension' : extension' ∈ extensions)
    (h : fileOf directory stem extension = fileOf directory' stem' extension') :
    directory = directory' ∧ stem = stem' ∧ extension = extension' := by
  have hplain : ∀ extension ∈ extensions, extension.toList ≠ [] ∧ '.' ∉ extension.toList := by
    decide
  obtain ⟨hdirectory, hname⟩ := List.append_inj' h rfl
  have hname := congrArg String.toList (List.singleton_inj.mp hname)
  simp only [String.toList_append, List.append_assoc] at hname
  have hsame := congrArg Path.stemOfName hname
  rw [show ".".toList = ['.'] from rfl, List.singleton_append, List.singleton_append,
    Path.stemOfName_append (by simpa using hstem) (hplain _ hextension).1 (hplain _ hextension).2,
    Path.stemOfName_append (by simpa using hstem') (hplain _ hextension').1
      (hplain _ hextension').2, String.toList_inj] at hsame
  subst hsame
  exact ⟨hdirectory, rfl, String.toList_injective (by simpa using hname)⟩

/-- The schema file of a fixture is at the path, in a directory and under a stem that leaves names
for the other files. -/
structure Standing (t : FileTree) (path : String) (directory : List String) (stem : String) :
    Prop where
  name : (Path.splitName path).2 = (stem ++ ".nodes").toList
  ne_empty : stem ≠ ""
  ne_dot : stem ≠ "."
  liesIn : t.LiesIn path directory
  checkPath : FileTree.checkPath path = .ok ()
  isTooLong : FileTree.isTooLong (stem ++ ".nodes") = false

section Standing

variable {t after : FileTree} {path stem extension text : String} {directory : List String}

theorem Standing.keeps (h : Standing t path directory stem) (hkeeps : Keeps t after) :
    Standing after path directory stem :=
  { h with liesIn := h.liesIn.keeps hkeeps }

theorem Standing.splitName (h : Standing t path directory stem) :
    (Path.splitName path).2 = stem.toList ++ '.' :: "nodes".toList := by
  rw [h.name]
  simp

theorem Standing.stem_eq (h : Standing t path directory stem) : Path.stem path = stem := by
  rw [Path.stem_eq h.splitName (by simpa using h.ne_empty) (by decide) (by decide),
    String.ofList_toList]

theorem Standing.withExtension_eq (h : Standing t path directory stem) (extension : String) :
    Path.withExtension path extension =
      Path.renamed path (stem.toList ++ '.' :: extension.toList) :=
  Path.withExtension_eq_renamed h.splitName (by simpa using h.ne_empty) (by decide) (by decide)
    (fun hdot => h.ne_dot (String.toList_injective hdot)) extension

theorem Standing.withExtension_nodes (h : Standing t path directory stem) :
    Path.withExtension path "nodes" = path := by
  rw [h.withExtension_eq, ← h.splitName, Path.renamed_self]

/-- There are names for all files of a fixture : none is longer than that of the schema file. -/
theorem Standing.canBeRenamed (h : Standing t path directory stem)
    (hextension : extension ∈ extensions) :
    CanBeRenamed path (stem.toList ++ '.' :: extension.toList) := by
  have hfacts : ∀ extension ∈ extensions, extension.toList ≠ [] ∧ '/' ∉ extension.toList ∧
      extension.utf8ByteSize ≤ "nodes".utf8ByteSize := by
    decide
  obtain ⟨hne, hslash, hsize⟩ := hfacts extension hextension
  have hname : String.ofList (stem.toList ++ '.' :: extension.toList) =
      stem ++ "." ++ extension :=
    String.toList_injective (by simp)
  have hsizeName : (stem ++ "." ++ extension).utf8ByteSize ≤ (stem ++ ".nodes").utf8ByteSize := by
    rw [show ".nodes" = "." ++ "nodes" from rfl]
    simp only [String.utf8ByteSize_append]
    omega
  refine ⟨?_, isProperName_of_extension (by simpa using h.ne_empty) hne, ?_, ?_⟩
  · have hstem := Path.not_mem_splitName path
    rw [h.splitName, List.mem_append, not_or] at hstem
    simp [hstem.1, hslash]
  · have hlength := h.isTooLong
    simp only [FileTree.isTooLong, decide_eq_false_iff_not] at hlength ⊢
    rw [hname]
    omega
  · refine checkPath_renamed h.checkPath (by simp) ?_
    rw [hname, h.name, String.ofList_toList]
    exact hsizeName

theorem fileOf_eq (directory : List String) (stem extension : String) :
    fileOf directory stem extension =
      directory ++ [String.ofList (stem.toList ++ '.' :: extension.toList)] := by
  rw [fileOf, show String.ofList (stem.toList ++ '.' :: extension.toList) = stem ++ "." ++ extension
    from String.toList_injective (by simp)]

/-- What is found at the path of a file of a fixture is what stands at its place. -/
theorem Standing.entryAt (h : Standing t path directory stem)
    (hextension : extension ∈ extensions) :
    t.entryAt (Path.withExtension path extension) =
      match t.find? (fileOf directory stem extension) with
      | some entry => .ok (fileOf directory stem extension, entry)
      | none => .error .notFound := by
  rw [h.withExtension_eq, fileOf_eq]
  exact h.liesIn.entryAt_renamed (h.canBeRenamed hextension)

/-- What is written to the path of a file of a fixture is put at its place. -/
theorem Standing.writeText (h : Standing t path directory stem)
    (hextension : extension ∈ extensions) (text : String) :
    t.writeText (Path.withExtension path extension) text =
      if t.find? (fileOf directory stem extension) = some .directory then .error .isDirectory
      else .ok (t.put (fileOf directory stem extension) (.file text.toUTF8)) := by
  rw [h.withExtension_eq, fileOf_eq]
  exact h.liesIn.writeText_renamed (h.canBeRenamed hextension) text

theorem Standing.readText_eq_ok_iff (h : Standing t path directory stem)
    (hextension : extension ∈ extensions) :
    t.readText (Path.withExtension path extension) = .ok text ↔
      t.HasText (fileOf directory stem extension) text := by
  rw [readText, h.entryAt hextension, HasText]
  cases t.find? (fileOf directory stem extension) with
  | none => simp
  | some entry => cases entry <;> simp

/-- The settings of a fixture are those in the file at a place, or the standard ones if nothing is
there. -/
def HasSettings (t : FileTree) (place : List String) (settings : Settings) : Prop :=
  (t.find? place = none ∧ settings = .standard) ∨
    ∃ text, t.HasText place text ∧ Settings.read text = .ok settings

theorem Standing.settings_eq_ok_iff (h : Standing t path directory stem) {settings : Settings} :
    Fixture.settings t path = .ok settings ↔
      HasSettings t (fileOf directory stem "json") settings := by
  have hjson : "json" ∈ extensions := by decide
  have hentry := h.entryAt hjson
  have hread (text : String) : t.HasText (fileOf directory stem "json") text ↔
      t.readText (Path.withExtension path "json") = .ok text :=
    (h.readText_eq_ok_iff hjson).symm
  unfold Fixture.settings
  simp only [HasSettings, hread]
  cases hfind : t.find? (fileOf directory stem "json") with
  | none =>
    rw [hfind] at hentry
    simp [hasEntry, FileTree.readText, hentry, eq_comm]
  | some entry =>
    rw [hfind] at hentry
    have hexists : t.hasEntry (Path.withExtension path "json") = true := by
      rw [hasEntry, hentry]
    simp only [hexists, if_true, FileTree.readSettings, reduceCtorEq, false_and, false_or]
    cases t.readText (Path.withExtension path "json") with
    | error cause => simp
    | ok text => cases hsettings : Settings.read text <;> simp [hsettings]

/-! ## Results -/

/-- The result of a schema file, and the extension of the file in which it is expected. -/
def resultOf (settings : Settings) (source : String) : String × String :=
  match Schema.read settings source with
  | .ok schema => (schema.header settings, "hpp")
  | .error fault => (fault.reason.code ++ "\n", "err")

theorem result_eq (settings : Settings) (source path : String) :
    result settings source path = ((resultOf settings source).1,
      Path.withExtension path (resultOf settings source).2) := by
  unfold result resultOf
  cases Schema.read settings source <;> rfl

/-- A fixture gives a result, to be expected in the file with the given extension. -/
def Gives (t : FileTree) (directory : List String) (stem actual extension : String) : Prop :=
  ∃ source settings, t.HasText (fileOf directory stem "nodes") source ∧
    HasSettings t (fileOf directory stem "json") settings ∧
    resultOf settings source = (actual, extension)

variable {actual : String}

theorem Gives.extension_eq (h : Gives t directory stem actual extension) :
    extension = "hpp" ∨ extension = "err" := by
  obtain ⟨source, settings, -, -, hresult⟩ := h
  unfold resultOf at hresult
  split at hresult
  · exact .inl (Prod.mk.inj hresult).2.symm
  · exact .inr (Prod.mk.inj hresult).2.symm

theorem HasSettings.unique {place : List String} {settings other : Settings}
    (h : HasSettings t place settings) (hother : HasSettings t place other) :
    settings = other := by
  rcases h with ⟨hnone, rfl⟩ | ⟨text, htext, hread⟩ <;>
    rcases hother with ⟨hnone', rfl⟩ | ⟨text', htext', hread'⟩
  · rfl
  · obtain ⟨content, hfind, -⟩ := htext'
    rw [hnone] at hfind
    cases hfind
  · obtain ⟨content, hfind, -⟩ := htext
    rw [hnone'] at hfind
    cases hfind
  · rw [htext.unique htext', hread'] at hread
    exact (Except.ok.inj hread).symm

/-- A fixture gives one result. -/
theorem Gives.unique {other extension' : String} (h : Gives t directory stem actual extension)
    (hother : Gives t directory stem other extension') : actual = other := by
  obtain ⟨source, settings, hsource, hsettings, hresult⟩ := h
  obtain ⟨source', settings', hsource', hsettings', hresult'⟩ := hother
  rw [hsource.unique hsource', hsettings.unique hsettings', hresult'] at hresult
  exact (Prod.mk.inj hresult).1.symm

/-- A fixture gives the same result where its schema file and its settings are the same. -/
theorem Gives.congr (h : Gives t directory stem actual extension)
    (hsource : after.find? (fileOf directory stem "nodes") =
      t.find? (fileOf directory stem "nodes"))
    (hsettings : after.find? (fileOf directory stem "json") =
      t.find? (fileOf directory stem "json")) : Gives after directory stem actual extension := by
  simpa only [Gives, HasSettings, hasText_congr hsource, hasText_congr hsettings, hsettings]
    using h

end Standing

end Fixture

end NodeSchema
