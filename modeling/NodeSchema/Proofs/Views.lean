import NodeSchema.Proofs.Arguments
import NodeSchema.Proofs.Landmarks
import NodeSchema.Proofs.PrettyText
import NodeSchema.Proofs.Readback
import NodeSchema.Proofs.Run

/-!
# Three views of a schema

The commands `check`, `schema` and `cpp` read their schema in the same way
(`Command.prepare_schema_eq`, `Command.prepare_plainCpp_eq`) and show it in different forms. With
the same options they end with the same exit status and say the same on the standard error. If
they succeed, then the outputs show the same nodes (`ShowNames`) : their number, the keys of the
JSON object, the member functions of the visitor and the alternatives of the union.

`commands_agree` states this for everything that can be written before the name of `check` and
behind it.
-/

namespace NodeSchema

open Header

/-! ## Reading the three views -/

/-- The keys of an object. -/
def Json.keys? : Json → Option (List String)
  | .obj members => some (members.map Prod.fst)
  | _ => none

/-- The names in the line of an alias : those between the angle brackets, with commas and blanks
between them. -/
def aliasNames (row : String) : List String :=
  ((((row.toList.dropWhile (· != '<')).drop 1).takeWhile (· != '>')).splitOn ',').map fun piece =>
    String.ofList (piece.dropWhile (· = ' '))

/-- What `check`, `schema` and `cpp` print shows nodes with these names : their number, the keys
of the object, the visitor's member functions and the alternatives of the union. -/
structure ShowNames (coloured : Bool) (label : String) (names : List String)
    (checked printed written : String) : Prop where
  count : checked = paint coloured "1;32" "ok:" ++ " " ++ label ++ " ("
    ++ toString names.length ++ " node types)\n"
  keys : ∃ value : Json, printed = value.pretty ++ "\n" ∧ value.keys? = some names ∧
    ∀ other : Json, printed = other.pretty ++ "\n" → other = value
  visits : (rows written).countP (startsWith "    virtual R visit(const ") = names.length
  alternatives : names ≠ [] →
    ((rows written).filter (startsWith "using ")).map aliasNames = [names]

/-! ## The lines of the header -/

section Lines

variable {settings : Settings} {schema : Schema}

/-- Lines that start like some landmarks are those landmarks. -/
theorem filter_startsWith_rows (hsettings : settings.Usable) (h : schema.Declarable settings)
    {start : String} (hstart : ∀ line, startsWith start line = true → isLandmark line = true) :
    (rows (schema.header settings)).filter (startsWith start) =
      ((landmarks settings schema).filter fun landmark =>
        startsWith start (landmark.text settings schema)).map (Landmark.text settings schema) := by
  have hboth : (rows (schema.header settings)).filter (startsWith start) =
      ((rows (schema.header settings)).filter isLandmark).filter (startsWith start) := by
    rw [List.filter_filter]
    refine List.filter_congr fun line _ => ?_
    cases hline : startsWith start line with
    | false => rfl
    | true => simp [hstart line hline]
  rw [hboth, filter_rows hsettings h, List.filter_map]
  rfl

theorem startsWith_append (start rest : String) : startsWith start (start ++ rest) = true := by
  simp [startsWith]

theorem startsWith_of_startsWith {start shorter line : String} (h : startsWith start line = true)
    (hshorter : startsWith shorter start = true) : startsWith shorter line = true := by
  simp only [startsWith, decide_eq_true_eq] at h hshorter ⊢
  exact hshorter.trans h

/-- A line with another first character starts differently. -/
theorem startsWith_of_head?_ne {start line : String} {c : Char}
    (hstart : start.toList.head? = some c) (hline : line.toList.head? ≠ some c) :
    startsWith start line = false := by
  rw [startsWith, decide_eq_false_iff_not]
  rintro ⟨rest, heq⟩
  rw [← heq] at hline
  simp [List.head?_append, hstart] at hline

/-- A landmark that is a member function of the visitor. -/
def Landmark.isVisit : Landmark → Bool
  | visit _ => true
  | _ => false

theorem Landmark.startsWith_text (settings : Settings) (schema : Schema) (landmark : Landmark) :
    startsWith "    virtual R visit(const " (landmark.text settings schema) = landmark.isVisit := by
  have hfirst : "    virtual R visit(const ".toList.head? = some ' ' := by decide
  cases landmark with
  | visit name => rw [text_visit, String.append_assoc, startsWith_append, isVisit]
  | _ => exact startsWith_of_head?_ne hfirst (by simp)

theorem countP_visit_rows (hsettings : settings.Usable) (h : schema.Declarable settings) :
    (rows (schema.header settings)).countP (startsWith "    virtual R visit(const ") =
      schema.names.length := by
  have hstart (line : String) (hline : startsWith "    virtual R visit(const " line = true) :
      isLandmark line = true := by
    have hshorter : startsWith "    virtual R " line = true :=
      startsWith_of_startsWith hline (by decide)
    simp [isLandmark, hshorter]
  rw [List.countP_eq_length_filter, filter_startsWith_rows hsettings h hstart, List.length_map,
    ← List.countP_eq_length_filter]
  simp only [Landmark.startsWith_text, landmarks]
  split_ifs <;> simp [Landmark.isVisit, Function.comp_def]

theorem filter_using_rows (hsettings : settings.Usable) (h : schema.Declarable settings) :
    (rows (schema.header settings)).filter (startsWith "using ") =
      [Landmark.union.text settings schema] := by
  have hstart (line : String) (hline : startsWith "using " line = true) :
      isLandmark line = true := by
    simp [isLandmark, hline]
  rw [filter_startsWith_rows hsettings h hstart]
  simp [landmarks, startsWith, List.filter_map, Function.comp_def]

/-- Names with commas and blanks between them are the pieces between the commas. -/
theorem splitOn_intercalate_names {names : List String} (hne : names ≠ [])
    (hnames : ∀ name ∈ names, isIdentifier name = true) :
    ((", ".intercalate names).toList.splitOn ',').map (fun piece =>
      String.ofList (piece.dropWhile (· = ' '))) = names := by
  obtain ⟨first, others, rfl⟩ := List.exists_cons_of_ne_nil hne
  have hpieces : (", ".intercalate (first :: others)).toList =
      [','].intercalate (first.toList :: others.map fun name => ' ' :: name.toList) := by
    rw [String.toList_intercalate, List.map_cons, Text.intercalate_cons_eq_flatMap,
      Text.intercalate_cons_eq_flatMap]
    simp [List.flatMap_map]
  have hcomma : ∀ piece ∈ first.toList :: others.map (fun name => ' ' :: name.toList),
      ',' ∉ piece := by
    intro piece hpiece
    rcases List.mem_cons.mp hpiece with rfl | hpiece
    · exact not_mem_of_not_isNameChar (hnames first List.mem_cons_self) (by decide)
    · obtain ⟨name, hname, rfl⟩ := List.mem_map.mp hpiece
      have := not_mem_of_not_isNameChar (hnames name (List.mem_cons_of_mem _ hname))
        (show isNameChar ',' = false by decide)
      simpa using this
  have hstart : ∀ name ∈ first :: others, name.toList.dropWhile (· = ' ') = name.toList := by
    intro name hname
    obtain ⟨c, rest, htext, -⟩ := isIdentifier_iff.mp (hnames name hname)
    have hc : ' ' ∉ c :: rest :=
      htext ▸ not_mem_of_not_isNameChar (hnames name hname) (by decide)
    have hne : c ≠ ' ' := by
      rintro rfl
      exact hc List.mem_cons_self
    rw [htext, List.dropWhile_cons_of_neg (by simpa using hne)]
  rw [hpieces, List.splitOn_intercalate ',' hcomma (by simp), List.map_cons,
    hstart first List.mem_cons_self, String.ofList_toList, List.map_map, List.cons_inj_right]
  refine (List.map_congr_left fun name hname => ?_).trans (List.map_id others)
  simp [hstart name (List.mem_cons_of_mem _ hname)]

/-- The names between the brackets of the alias are those of the nodes. -/
theorem aliasNames_union (hsettings : settings.Usable) (h : schema.Declarable settings)
    (hne : schema.names ≠ []) :
    aliasNames (Landmark.union.text settings schema) = schema.names := by
  have hnames : ∀ name ∈ schema.names, isIdentifier name = true := by
    rw [h.names_eq, List.forall_mem_map]
    exact h.isIdentifier_name
  have halternatives : alternatives schema = ", ".intercalate schema.names := by
    rw [alternatives, isEmpty_eq_isEmpty_names, if_neg (by simpa using hne)]
  have hunion : '<' ∉ ("using " ++ settings.unionName ++ " = std::variant").toList := by
    have hname : '<' ∉ settings.unionName.toList :=
      not_mem_of_not_isNameChar (Settings.isDeclarable_iff.mp hsettings.unionName).1 (by decide)
    simpa using hname
  have hinside : '>' ∉ (", ".intercalate schema.names).toList :=
    not_mem_intercalate (by decide) fun name hname =>
      not_mem_of_not_isNameChar (hnames name hname) (by decide)
  have hpass {text : List Char} {c : Char} (hc : c ∉ text) : ∀ d ∈ text, (d != c) = true := by
    intro d hd
    rw [bne_iff_ne]
    rintro rfl
    exact hc hd
  have htext : (Landmark.union.text settings schema).toList =
      ("using " ++ settings.unionName ++ " = std::variant").toList
        ++ '<' :: ((", ".intercalate schema.names).toList ++ '>' :: [';']) := by
    simp [halternatives]
  rw [aliasNames, htext, List.dropWhile_append_of_pos (hpass hunion),
    List.dropWhile_cons_of_neg (by simp), List.drop_one, List.tail_cons,
    List.takeWhile_append_of_pos (hpass hinside), List.takeWhile_cons_of_neg (by simp),
    List.append_nil]
  exact splitOn_intercalate_names hne hnames

end Lines

/-! ## Three runs -/

namespace Command

variable (source : InputOptions) (around : Surroundings)

theorem prepare_schema_eq (out : Option String) :
    (Command.schema source out).prepare around = (Command.check source).prepare around :=
  rfl

theorem prepare_plainCpp_eq :
    (plainCpp source).prepare around = (Command.check source).prepare around := by
  have happly : (plainCpp source).applyTo = (Command.check source).applyTo := by
    funext settings
    simp [plainCpp, applyTo, HeaderOptions.applyTo, InputOptions.applyTo]
  have hsettings : (plainCpp source).settings = (Command.check source).settings := by
    unfold Command.settings
    rw [happly]
    rfl
  unfold prepare
  rw [hsettings]
  rfl

end Command

/-- The outputs for one schema show its names. -/
theorem showNames_product {settings : Settings} {schema : Schema} (hsettings : settings.Usable)
    (h : schema.Declarable settings) (coloured : Bool) (source : InputOptions) :
    ShowNames coloured source.label schema.names
      ((Command.check source).product coloured settings schema)
      ((Command.schema source none).product coloured settings schema)
      ((Command.plainCpp source).product coloured settings schema) := by
  refine ⟨?_, ⟨schema.toJson, rfl, ?_, fun other hother => ?_⟩, countP_visit_rows hsettings h,
    fun hne => ?_⟩
  · simp [Command.product, Schema.size, Schema.names]
  · simp [Json.keys?, Schema.toJson, Schema.names, Function.comp_def]
  · have htext : schema.toJson.pretty ++ "\n" = other.pretty ++ "\n" := hother
    refine Json.pretty_injective (String.toList_injective ?_)
    simpa using congrArg String.toList htext.symm
  · rw [show (Command.plainCpp source).product coloured settings schema = schema.header settings
      from rfl, filter_using_rows hsettings h, List.map_singleton, aliasNames_union hsettings h hne]

/-- The commands `check`, `schema` and `cpp` end with the same exit status and the same text on
the standard error, when they are given the same options, before their names and behind them. If
they succeed, their outputs show the same nodes. -/
theorem commands_agree {leading options : List String} {noted : Given Invocation.Key}
    (hleading : Arguments.readOptions Invocation.leadingOptions [] leading = .ok (noted, []))
    {verbose : Bool} {source : InputOptions}
    (hread : Invocation.read (leading ++ "check" :: options) = .ok ⟨verbose, .check source⟩)
    (around : Surroundings) :
    let checked := Generator.run (leading ++ "check" :: options) around
    let printed := Generator.run (leading ++ "schema" :: options) around
    let written := Generator.run (leading ++ "cpp" :: options) around
    (printed.exit = checked.exit ∧ written.exit = checked.exit) ∧
      (printed.stderr = checked.stderr ∧ written.stderr = checked.stderr) ∧
      (checked.exit = 0 → ∃ names,
        ShowNames around.coloured source.label names checked.stdout printed.stdout
          written.stdout) := by
  obtain ⟨hschema, hcpp⟩ := Invocation.read_of_read_check hleading hread
  rw [Generator.run_of_read hread, Generator.run_of_read hschema, Generator.run_of_read hcpp]
  have hprinted := Command.prepare_schema_eq source around none
  have hwritten := Command.prepare_plainCpp_eq source around
  dsimp only
  cases hchecked : (Command.check source).prepare around with
  | error error =>
    rw [hchecked] at hprinted hwritten
    rw [@Invocation.run_of_prepare_error ⟨verbose, .check source⟩ around rfl error hchecked,
      @Invocation.run_of_prepare_error ⟨verbose, .schema source none⟩ around rfl error hprinted,
      @Invocation.run_of_prepare_error ⟨verbose, .plainCpp source⟩ around rfl error hwritten]
    exact ⟨⟨rfl, rfl⟩, ⟨rfl, rfl⟩, fun hexit => absurd hexit Nat.one_ne_zero⟩
  | ok prepared =>
    obtain ⟨settings, schema⟩ := prepared
    rw [hchecked] at hprinted hwritten
    have hready := Command.prepare_eq_ok_iff.mp hchecked
    obtain ⟨text, -, hschemaRead⟩ := hready.read
    have hcheck := hready.ready.usable
    rw [@Invocation.run_without_file ⟨verbose, .check source⟩ around rfl _ _ hchecked rfl,
      @Invocation.run_without_file ⟨verbose, .schema source none⟩ around rfl _ _ hprinted rfl,
      @Invocation.run_without_file ⟨verbose, .plainCpp source⟩ around rfl _ _ hwritten rfl]
    exact ⟨⟨rfl, rfl⟩, ⟨rfl, rfl⟩, fun _ => ⟨schema.names,
      showNames_product (Settings.check_eq_ok_iff.mp hcheck) (declarable_of_read hcheck hschemaRead)
        around.coloured source⟩⟩

/-- Two nodes in one tree, shown with a separator of the command's own. -/
theorem commands_agree_on_two_nodes :
    ∃ (around : Surroundings) (source : InputOptions),
      Invocation.read ["-v", "check", "-inodes", "--separator=;"] = .ok ⟨true, .check source⟩ ∧
      (Generator.run ["-v", "check", "-inodes", "--separator=;"] around).exit = 0 ∧
      (Generator.run ["-v", "cpp", "-inodes", "--separator=;"] around).exit = 0 ∧
      (Generator.run ["-v", "schema", "-inodes", "--separator=;"] around).stderr =
        (Generator.run ["-v", "check", "-inodes", "--separator=;"] around).stderr ∧
      ∃ names, ShowNames false "nodes" names
        (Generator.run ["-v", "check", "-inodes", "--separator=;"] around).stdout
        (Generator.run ["-v", "schema", "-inodes", "--separator=;"] around).stdout
        (Generator.run ["-v", "cpp", "-inodes", "--separator=;"] around).stdout := by
  let around : Surroundings :=
    { stdin := ByteArray.empty
      coloured := false
      tree :=
        { entries :=
            [(["here"], .directory), (["here", "nodes"], .file "leaf\nunary ; leaf child".toUTF8)]
          here := ["here"] } }
  let source : InputOptions := ⟨"nodes", none, some ';', none, none⟩
  have hread : Invocation.read ["-v", "check", "-inodes", "--separator=;"] =
      .ok ⟨true, .check source⟩ := by decide
  have hentry : around.tree.entryAt "nodes" =
    .ok (["here", "nodes"], .file "leaf\nunary ; leaf child".toUTF8) := rfl
  have hcontent : source.content around = .ok "leaf\nunary ; leaf child" :=
    InputOptions.content_of_entryAt (by decide) hentry
  have hreads : (Command.check source).Reads around { Settings.standard with separator := ';' }
      (.ofNodes [⟨"leaf", [], 1⟩, ⟨"unary", [⟨"leaf", "child"⟩], 2⟩]) :=
    ⟨⟨⟨_, .standard rfl, by constructor <;> rfl⟩, by decide⟩, _, hcontent, by decide⟩
  have hexit : (Generator.run ["-v", "check", "-inodes", "--separator=;"] around).exit = 0 := by
    rw [Generator.run_of_read hread, @Invocation.run_without_file ⟨true, .check source⟩ around rfl
      _ _ (Command.prepare_eq_ok_iff.mpr hreads) rfl]
  have hleading : Arguments.readOptions Invocation.leadingOptions [] ["-v"] =
      .ok ([(.verbose, "")], []) := by decide
  obtain ⟨⟨-, hwritten⟩, ⟨hstderr, -⟩, hnames⟩ := commands_agree hleading hread around
  exact ⟨around, source, hread, hexit, hwritten.trans hexit, hstderr, hnames hexit⟩

end NodeSchema
