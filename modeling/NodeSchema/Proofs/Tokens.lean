import NodeSchema.Proofs.HeaderText

/-!
# The identifiers in the code of a header

The identifiers of a line are its runs of name characters (`nameRuns`), without a comment at
its end and without the line if it is a directive (`lineTokens`). A text that is put together
has the runs of its parts, if wherever two parts meet one of them has a gap there
(`nameRuns_append_of_head?`, `nameRuns_append_of_getLast?`).

Each section of a header is such a text, of fixed words and of names, so its identifiers can
be listed. Those of the whole header are the words of the namespace and those of the
declarations (`codeTokens_header`); the rest of it is comments and directives.
-/

namespace NodeSchema

open Header

/-! ## Runs of a text -/

/-- A character that stands between two runs. -/
def isGap (c : Char) : Bool :=
  !isNameChar c

/-- The maximal runs of name characters of a text, in order. -/
def nameRuns (text : String) : List String :=
  ((text.toList.splitOnP isGap).filter (!·.isEmpty)).map String.ofList

theorem mem_nameRuns_iff {run text : String} : run ∈ nameRuns text ↔ IsNameRun run text := by
  have hpieces : IsNameRun run text ↔ run ≠ "" ∧ run.toList ∈ text.toList.splitOnP isGap :=
    isNameRun_iff_mem_splitOnP
  rw [nameRuns, hpieces, List.mem_map]
  refine ⟨?_, ?_⟩
  · rintro ⟨piece, hpiece, rfl⟩
    obtain ⟨hmem, hne⟩ := List.mem_filter.mp hpiece
    refine ⟨fun hempty => ?_, by rwa [String.toList_ofList]⟩
    rw [← String.toList_eq_nil_iff, String.toList_ofList] at hempty
    simp [hempty] at hne
  · rintro ⟨hne, hmem⟩
    refine ⟨run.toList, List.mem_filter.mpr ⟨hmem, ?_⟩, String.ofList_toList⟩
    simpa using hne

/-- A text may be cut in front of a gap. -/
theorem nameRuns_append_of_head? (s : String) {t : String}
    (h : t.toList.head?.all isGap = true) : nameRuns (s ++ t) = nameRuns s ++ nameRuns t := by
  unfold nameRuns
  rw [String.toList_append]
  cases ht : t.toList with
  | nil => simp
  | cons c rest =>
    have hc : isGap c = true := by simpa [ht] using h
    have hrest : (c :: rest).splitOnP isGap = [] :: rest.splitOnP isGap := by
      simpa using List.splitOnP_append_cons [] rest hc
    rw [List.splitOnP_append_cons _ _ hc, hrest]
    simp

/-- A text may be cut behind a gap. -/
theorem nameRuns_append_of_getLast? {s : String} (t : String)
    (h : s.toList.getLast?.all isGap = true) :
    nameRuns (s ++ t) = nameRuns s ++ nameRuns t := by
  unfold nameRuns
  rw [String.toList_append]
  rcases List.eq_nil_or_concat s.toList with hs | ⟨start, c, hs⟩
  · simp [hs]
  · have hc : isGap c = true := by simpa [hs] using h
    rw [hs, List.concat_eq_append, List.append_assoc, List.singleton_append,
      List.splitOnP_append_cons _ _ hc, List.splitOnP_append_cons _ _ hc]
    simp

/-- A text may be cut at both ends of a mark that starts and ends with a gap. -/
theorem nameRuns_append_mark (s : String) {mark : String} (t : String) (hne : mark ≠ "")
    (hhead : mark.toList.head?.all isGap = true)
    (hlast : mark.toList.getLast?.all isGap = true) :
    nameRuns (s ++ mark ++ t) = nameRuns s ++ nameRuns mark ++ nameRuns t := by
  have hend : (s ++ mark).toList.getLast?.all isGap = true := by
    have hchars : mark.toList ≠ [] := mt String.toList_eq_nil_iff.mp hne
    rwa [String.toList_append, List.getLast?_append_of_ne_nil _ hchars]
  rw [nameRuns_append_of_getLast? t hend, nameRuns_append_of_head? s hhead]

theorem nameRuns_of_isIdentifier {name : String} (h : isIdentifier name = true) :
    nameRuns name = [name] := by
  have hchars : ∀ c ∈ name.toList, isGap c = false := by
    intro c hc
    simp [isGap, isNameChar_of_mem h hc]
  have hne := toList_ne_nil_of_isTypeExpr (isTypeExpr_of_isIdentifier h)
  rw [nameRuns, List.splitOnP_eq_singleton hchars]
  simp [hne]

/-- The runs of joined strings are those of each. -/
theorem nameRuns_intercalate {mark : String} (hne : mark ≠ "")
    (hhead : mark.toList.head?.all isGap = true)
    (hlast : mark.toList.getLast?.all isGap = true) (hmark : nameRuns mark = [])
    (pieces : List String) : nameRuns (mark.intercalate pieces) = pieces.flatMap nameRuns := by
  induction pieces with
  | nil => rfl
  | cons piece rest ih =>
    cases rest with
    | nil => simp
    | cons next rest =>
      rw [String.intercalate_cons_cons, nameRuns_append_mark _ _ hne hhead hlast, hmark, ih]
      simp

/-! ## Lines of code -/

/-- The part of a line in front of a comment. -/
def beforeComment : List Char → List Char
  | [] => []
  | '/' :: '/' :: _ => []
  | c :: rest => c :: beforeComment rest

/-- Whether a line is a directive of the preprocessor. -/
def isDirective (line : String) : Bool :=
  (Text.trimStart line.toList).head? = some '#'

/-- The identifiers in a line of code. A directive is no code, and neither is a comment. -/
def lineTokens (line : String) : List String :=
  if isDirective line then [] else nameRuns (String.ofList (beforeComment line.toList))

/-- The identifiers in the code of a text. -/
def codeTokens (text : String) : List String :=
  (rows text).flatMap lineTokens

theorem beforeComment_of_not_mem {line : List Char} (h : '/' ∉ line) :
    beforeComment line = line := by
  fun_induction beforeComment line with
  | case1 => rfl
  | case2 rest => simp at h
  | case3 c rest _ ih => rw [ih (List.not_mem_of_not_mem_cons h)]

theorem lineTokens_of_not_mem {line : String} (hslash : '/' ∉ line.toList)
    (hsign : '#' ∉ line.toList) : lineTokens line = nameRuns line := by
  have hdirective : isDirective line = false := by
    rw [isDirective, decide_eq_false_iff_not]
    exact fun h => hsign (List.dropWhile_subset _ (List.mem_of_head? h))
  rw [lineTokens, hdirective, if_neg Bool.false_ne_true, beforeComment_of_not_mem hslash,
    String.ofList_toList]

theorem lineTokens_of_head? {line : String} (h : line.toList.head? = some '#') :
    lineTokens line = [] := by
  obtain ⟨rest, hline⟩ := List.head?_eq_some_iff.mp h
  have hblank : Text.isBlank '#' = false := by decide
  simp [lineTokens, isDirective, Text.trimStart, hline, hblank]

/-! ## The sections of a header -/

theorem scope?_eq_none_iff {settings : Settings} :
    scope? settings = none ↔ settings.scopeSegments = [] := by
  unfold scope?
  split <;> simp_all

section Settings

variable {settings : Settings} (h : settings.Usable)
include h

/-- The words of the namespace. -/
theorem nameRuns_scope {scope : String} (hscope : scope? settings = some scope) :
    nameRuns scope = settings.scopeSegments := by
  have hsegments : settings.scopeSegments.flatMap nameRuns = settings.scopeSegments := by
    rw [List.flatMap_congr fun segment hsegment =>
      nameRuns_of_isIdentifier (h.isIdentifier_of_mem_scopeSegments hsegment).1]
    exact List.flatMap_singleton' _
  unfold scope? at hscope
  split at hscope
  · cases hscope
  · cases hscope
    rw [nameRuns_intercalate (by decide) (by decide) (by decide) (by decide), hsegments]

theorem lineTokens_namespace {scope : String} (hscope : scope? settings = some scope) :
    lineTokens ("namespace " ++ scope ++ " \x7b") = "namespace" :: settings.scopeSegments := by
  have hslash := not_mem_scope h (.inr (.inl rfl)) hscope
  have hsign := not_mem_scope h (.inr (.inr rfl)) hscope
  have hopening : nameRuns "namespace " = ["namespace"] := by decide
  have hclosing : nameRuns " \x7b" = [] := by decide
  rw [lineTokens_of_not_mem (by simp [hslash]) (by simp [hsign]),
    nameRuns_append_of_head? _ (by decide), nameRuns_append_of_getLast? _ (by decide),
    nameRuns_scope h hscope, hopening, hclosing, List.append_nil, List.singleton_append]

theorem tokens_preamble :
    (preamble settings).flatMap lineTokens =
      if settings.scopeSegments = [] then [] else "namespace" :: settings.scopeSegments := by
  have hcomment : lineTokens "// Generated by nodegen. Do not edit." = [] := by decide
  have hblank : lineTokens "" = [] := by decide
  have hguard : lineTokens ("#ifndef " ++ settings.guard) = [] := lineTokens_of_head? (by simp)
  have hdefine : lineTokens ("#define " ++ settings.guard) = [] := lineTokens_of_head? (by simp)
  have hstandard : (standardIncludes.map fun header => "#include <" ++ header ++ ">").flatMap
      lineTokens = [] := by decide
  have hinclude : (settings.includes.map includeLine).flatMap lineTokens = [] := by
    rw [List.flatMap_eq_nil_iff, List.forall_mem_map]
    intro header _
    refine lineTokens_of_head? ?_
    unfold includeLine
    split_ifs <;> simp
  simp only [preamble, List.flatMap_append, hstandard, hinclude]
  simp only [List.flatMap_cons, List.flatMap_nil, hcomment, hblank, hguard, hdefine,
    List.append_nil, List.nil_append]
  cases hscope : scope? settings with
  | none => simp [scope?_eq_none_iff.mp hscope]
  | some scope =>
    have hne : settings.scopeSegments ≠ [] := fun hnil => by
      simp [scope?_eq_none_iff.mpr hnil] at hscope
    rw [if_neg hne]
    simp [lineTokens_namespace h hscope, hblank]

omit h in
theorem tokens_trailer : (trailer settings).flatMap lineTokens = [] := by
  have hclosing (scope : String) : lineTokens ("\x7d // namespace " ++ scope) = [] := by
    have hcode : beforeComment ("\x7d // namespace " ++ scope).toList = "\x7d ".toList := by
      simp [beforeComment]
    rw [lineTokens, hcode]
    split_ifs
    · rfl
    · decide
  have hguard : lineTokens ("#endif // " ++ settings.guard) = [] := lineTokens_of_head? (by simp)
  have hblank : lineTokens "" = [] := by decide
  unfold trailer
  split <;> simp [hclosing, hguard, hblank]

end Settings

section Pieces

-- the texts that more than one section is put together from

theorem nameRuns_empty : nameRuns "" = [] := by
  decide

theorem nameRuns_indent : nameRuns "    " = [] := by
  decide

theorem nameRuns_template : nameRuns "template <typename " = ["template", "typename"] := by
  decide

theorem nameRuns_angle : nameRuns ">" = [] := by
  decide

theorem nameRuns_resultParam : nameRuns resultParam = ["R"] := by
  decide

theorem nameRuns_class : nameRuns "class " = ["class"] := by
  decide

theorem nameRuns_public : nameRuns "public:" = ["public"] := by
  decide

theorem nameRuns_opening : nameRuns " \x7b" = [] := by
  decide

theorem nameRuns_closing : nameRuns "\x7d;" = [] := by
  decide

theorem nameRuns_semicolon : nameRuns ";" = [] := by
  decide

end Pieces

section Sections

variable {settings : Settings} {schema : Schema}

theorem nameRuns_name (h : schema.Declarable settings) {name : String}
    (hname : name ∈ schema.names) : nameRuns name = [name] := by
  rw [h.names_eq] at hname
  obtain ⟨node, hnode, rfl⟩ := List.mem_map.mp hname
  exact nameRuns_of_isIdentifier (h.isIdentifier_name node hnode)

theorem tokens_forwardDeclarations (h : schema.Declarable settings) :
    (forwardDeclarations schema).flatMap nameRuns =
      schema.names.flatMap fun name => ["class", name] := by
  have hline : ∀ name ∈ schema.names, nameRuns ("class " ++ name ++ ";") = ["class", name] := by
    intro name hname
    simp (disch := decide) only [nameRuns_append_of_head?, nameRuns_append_of_getLast?,
      nameRuns_class, nameRuns_semicolon, nameRuns_name h hname, List.append_nil,
      List.singleton_append]
  rw [forwardDeclarations, List.flatMap_append, List.flatMap_map, List.flatMap_congr hline]
  split_ifs <;> simp [nameRuns_empty]

theorem tokens_unionAlias (hsettings : settings.Usable) (h : schema.Declarable settings) :
    (unionAlias settings schema).flatMap nameRuns =
      ["using", settings.unionName, "std", "variant"]
        ++ if schema.isEmpty then ["std", "monostate"] else schema.names := by
  have hunion := nameRuns_of_isIdentifier (Settings.isDeclarable_iff.mp hsettings.unionName).1
  have halternatives : nameRuns (alternatives schema) =
      if schema.isEmpty then ["std", "monostate"] else schema.names := by
    unfold alternatives
    split_ifs
    · decide
    · rw [nameRuns_intercalate (by decide) (by decide) (by decide) (by decide),
        List.flatMap_congr fun _ => nameRuns_name h]
      exact List.flatMap_singleton' _
  have husing : nameRuns "using " = ["using"] := by decide
  have hvariant : nameRuns " = std::variant<" = ["std", "variant"] := by decide
  have hclosing : nameRuns ">;" = [] := by decide
  rw [unionAlias, List.flatMap_cons, List.flatMap_cons, List.flatMap_nil]
  simp (disch := decide) only [nameRuns_append_of_head?, nameRuns_append_of_getLast?,
    nameRuns_append_mark, husing, hvariant, hclosing, hunion, halternatives, nameRuns_empty]
  simp

theorem nameRuns_visitLine (h : schema.Declarable settings) {name : String}
    (hname : name ∈ schema.names) :
    nameRuns (visitLine name) = ["virtual", "R", "visit", "const", name, "return", "R"] := by
  have hheading : nameRuns ("    virtual " ++ resultParam ++ " visit(const ") =
      ["virtual", "R", "visit", "const"] := by decide
  have hreturn : nameRuns "&) \x7b return " = ["return"] := by decide
  have hclosing : nameRuns "(); \x7d" = [] := by decide
  unfold visitLine
  simp (disch := decide) only [nameRuns_append_of_head?, nameRuns_append_of_getLast?,
    nameRuns_append_mark, hheading, hreturn, nameRuns_resultParam, hclosing, nameRuns_name h hname]
  simp

theorem tokens_visitor (hsettings : settings.Usable) (h : schema.Declarable settings) :
    (visitor settings schema).flatMap nameRuns =
      ["template", "typename", "R", "class", settings.visitorName, "public", "virtual",
        settings.visitorName, "default"]
        ++ schema.names.flatMap fun name =>
          ["virtual", "R", "visit", "const", name, "return", "R"] := by
  have hvisitor := nameRuns_of_isIdentifier (Settings.isDeclarable_iff.mp hsettings.visitorName).1
  have hvirtual : nameRuns "    virtual ~" = ["virtual"] := by decide
  have hdefault : nameRuns "() = default;" = ["default"] := by decide
  have hvisit : (schema.names.map visitLine).flatMap nameRuns = schema.names.flatMap fun name =>
      ["virtual", "R", "visit", "const", name, "return", "R"] := by
    rw [List.flatMap_map, List.flatMap_congr fun _ => nameRuns_visitLine h]
  have hseparator : (if schema.isEmpty then [] else [""]).flatMap nameRuns = [] := by
    split_ifs <;> simp [nameRuns_empty]
  simp only [visitor, List.flatMap_append, hvisit, hseparator]
  simp (disch := decide) only [List.flatMap_cons, List.flatMap_nil, nameRuns_append_of_head?,
    nameRuns_append_of_getLast?, nameRuns_template, nameRuns_resultParam, nameRuns_angle,
    nameRuns_class, nameRuns_opening, nameRuns_public, hvirtual, hdefault, nameRuns_closing,
    nameRuns_empty, hvisitor]
  simp

theorem tokens_dispatch (hsettings : settings.Usable) :
    (dispatch settings schema).flatMap nameRuns =
      if schema.isEmpty then []
      else
        ["template", "typename", "R", "R", "dispatch", settings.visitorName, "R", "v", "const",
          settings.unionName, "value", "return", "std", "visit", "v", "const", "auto",
          "alternative", "R", "return", "v", "visit", "alternative", "value"] := by
  have hunion := nameRuns_of_isIdentifier (Settings.isDeclarable_iff.mp hsettings.unionName).1
  have hvisitor := nameRuns_of_isIdentifier (Settings.isDeclarable_iff.mp hsettings.visitorName).1
  have hheading : nameRuns (resultParam ++ " " ++ dispatchName ++ "(") = ["R", "dispatch"] := by
    decide
  have hangle : nameRuns "<" = [] := by decide
  have hparameter : nameRuns ">& v, const " = ["v", "const"] := by decide
  have hvalue : nameRuns "& value) \x7b" = ["value"] := by decide
  have hreturn : nameRuns ("    return std::visit([&v](const auto& alternative) -> "
      ++ resultParam ++ " \x7b return v.visit(alternative); \x7d, value);") =
        ["return", "std", "visit", "v", "const", "auto", "alternative", "R", "return", "v",
          "visit", "alternative", "value"] := by decide
  have hclosing : nameRuns "\x7d" = [] := by decide
  unfold dispatch
  split_ifs
  · rfl
  · simp (disch := decide) only [List.flatMap_cons, List.flatMap_nil, nameRuns_append_of_head?,
      nameRuns_append_of_getLast?, nameRuns_append_mark, nameRuns_template, nameRuns_angle,
      nameRuns_resultParam, hheading, hangle, hparameter, hvalue, hreturn, hclosing,
      nameRuns_empty, hunion, hvisitor]
    simp

/-- The words of a parameter : those of its type, and its name. -/
theorem nameRuns_parameter {field : Field} (hname : isIdentifier field.name = true) :
    nameRuns (parameter settings schema field) =
      nameRuns (memberType settings schema field) ++ [field.name] := by
  have hspace : nameRuns " " = [] := by decide
  rw [parameter, nameRuns_append_mark _ _ (by decide) (by decide) (by decide), hspace,
    List.append_nil, nameRuns_of_isIdentifier hname]

theorem nameRuns_initializer {field : Field} (hname : isIdentifier field.name = true) :
    nameRuns (initializer field) = [field.name, "std", "move", field.name] := by
  have hmove : nameRuns "(std::move(" = ["std", "move"] := by decide
  have hclosing : nameRuns "))" = [] := by decide
  unfold initializer
  simp (disch := decide) only [nameRuns_append_of_head?, nameRuns_append_mark, hmove, hclosing,
    nameRuns_of_isIdentifier hname]
  simp

theorem tokens_classBody {node : Node} (hname : isIdentifier node.name = true)
    (hfield : ∀ field ∈ node.fields, isIdentifier field.name = true) :
    (classBody settings schema node).flatMap nameRuns =
      if node.fields = [] then [node.name, "default"]
      else
        (if node.fields.length = 1 then ["explicit"] else []) ++ [node.name]
          ++ node.fields.flatMap (fun field => nameRuns (parameter settings schema field))
          ++ node.fields.flatMap (fun field => [field.name, "std", "move", field.name])
          ++ node.fields.flatMap fun field => nameRuns (parameter settings schema field) := by
  have hname := nameRuns_of_isIdentifier hname
  unfold classBody
  split
  · next hfields =>
    have hdefault : nameRuns "() = default;" = ["default"] := by decide
    simp (disch := decide) only [List.flatMap_cons, List.flatMap_nil, nameRuns_append_of_head?,
      nameRuns_append_of_getLast?, hname, nameRuns_indent, hdefault]
    simp [hfields]
  · next hfields =>
    have hparameters : nameRuns (", ".intercalate (node.fields.map (parameter settings schema))) =
        node.fields.flatMap fun field => nameRuns (parameter settings schema field) := by
      rw [nameRuns_intercalate (by decide) (by decide) (by decide) (by decide), List.flatMap_map]
    have hinitializers : nameRuns (", ".intercalate (node.fields.map initializer)) =
        node.fields.flatMap fun field => [field.name, "std", "move", field.name] := by
      rw [nameRuns_intercalate (by decide) (by decide) (by decide) (by decide), List.flatMap_map,
        List.flatMap_congr fun field hmem => nameRuns_initializer (hfield field hmem)]
    have hmember (field : Field) : nameRuns ("    " ++ parameter settings schema field ++ ";") =
        nameRuns (parameter settings schema field) := by
      simp (disch := decide) only [nameRuns_append_of_head?, nameRuns_append_of_getLast?,
        nameRuns_indent, nameRuns_semicolon]
      simp
    have hstart : nameRuns ("    " ++ (if node.fields.length = 1 then "explicit " else "")
        ++ node.name) = (if node.fields.length = 1 then ["explicit"] else []) ++ [node.name] := by
      split_ifs
      · have hexplicit : nameRuns ("    " ++ "explicit ") = ["explicit"] := by decide
        rw [nameRuns_append_of_getLast? _ (by decide), hname, hexplicit]
      · rw [nameRuns_append_of_getLast? _ (by decide), hname, String.append_empty, nameRuns_indent]
    have hopening : nameRuns "(" = [] := by decide
    have hclosing : nameRuns ")" = [] := by decide
    have hcolon : nameRuns "        : " = [] := by decide
    have hbody : nameRuns " \x7b\x7d" = [] := by decide
    simp (disch := decide) only [List.flatMap_append, List.flatMap_cons, List.flatMap_nil,
      List.flatMap_map, nameRuns_append_of_head?, nameRuns_append_of_getLast?,
      nameRuns_append_mark, hstart, hparameters, hinitializers, hmember, hopening, hclosing,
      hcolon, hbody, nameRuns_empty]
    rw [if_neg hfields]
    simp

theorem tokens_nodeClass {node : Node} (hname : isIdentifier node.name = true) :
    (nodeClass settings schema node).flatMap nameRuns =
      ["class", node.name, "public"] ++ (classBody settings schema node).flatMap nameRuns := by
  simp (disch := decide) only [nodeClass, List.flatMap_append, List.flatMap_cons,
    List.flatMap_nil, nameRuns_append_of_head?, nameRuns_append_of_getLast?, nameRuns_class,
    nameRuns_opening, nameRuns_public, nameRuns_closing, nameRuns_empty,
    nameRuns_of_isIdentifier hname]
  simp

end Sections

/-! ## The whole header -/

section Header

variable {settings : Settings} {schema : Schema}

/-- The code of a header is the opening of its namespace and its declarations. -/
theorem codeTokens_header (hsettings : settings.Usable) (h : schema.Declarable settings) :
    codeTokens (schema.header settings) =
      (if settings.scopeSegments = [] then [] else "namespace" :: settings.scopeSegments)
        ++ (declarations settings schema).flatMap nameRuns := by
  have hblank : [""].flatMap lineTokens = [] := by decide
  have hdeclarations : (declarations settings schema).flatMap lineTokens =
      (declarations settings schema).flatMap nameRuns :=
    List.flatMap_congr fun line hline =>
      lineTokens_of_not_mem (without_declarations (.inr (.inl rfl)) hsettings h line hline)
        (without_declarations (.inr (.inr rfl)) hsettings h line hline)
  simp only [codeTokens, rows_header hsettings h, lines_eq, List.flatMap_append,
    tokens_preamble hsettings, tokens_trailer, hdeclarations, hblank, List.append_nil]

end Header

end NodeSchema
