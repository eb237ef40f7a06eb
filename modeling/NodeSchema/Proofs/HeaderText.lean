import NodeSchema.Proofs.Scope
import NodeSchema.Proofs.Writer

/-!
# The text of a header and its lines

With usable settings, no line of the header of a schema that was read holds a line feed
(`without_lines`) : the names and types hold none because of their characters, and the
settings hold none because they were checked. So the lines of the header can be read back
from its text (`rows_header`), and two headers have the same text only if they have the
same lines (`lines_eq_of_header_eq`).

Between the preamble and the trailer (`Header.declarations`) no line holds a slash or a
number sign either (`without_declarations`), so there are neither comments nor directives.
-/

namespace NodeSchema

open Header

namespace Header

/-- The lines between the preamble and the trailer. -/
def declarations (settings : Settings) (schema : Schema) : List String :=
  forwardDeclarations schema ++ unionAlias settings schema ++ visitor settings schema
    ++ schema.nodes.flatMap (nodeClass settings schema) ++ dispatch settings schema

theorem lines_eq (settings : Settings) (schema : Schema) :
    lines settings schema =
      preamble settings ++ declarations settings schema ++ trailer settings := by
  simp [lines, declarations]

end Header

/-! ## Texts of lines -/

theorem toList_header (schema : Schema) (settings : Settings) :
    (schema.header settings).toList =
      (lines settings schema).flatMap fun line => line.toList ++ ['\n'] := by
  simp [HeaderWriter.header_eq, List.flatMap_map]

/-- Lines in which a character does not stand. -/
def Without (c : Char) (contents : List String) : Prop :=
  ∀ line ∈ contents, c ∉ line.toList

section Without

variable {c : Char}

theorem without_nil : Without c [] := by
  simp [Without]

theorem without_cons {line : String} {rest : List String} :
    Without c (line :: rest) ↔ c ∉ line.toList ∧ Without c rest :=
  List.forall_mem_cons

theorem without_append {a b : List String} : Without c (a ++ b) ↔ Without c a ∧ Without c b :=
  List.forall_mem_append

theorem without_map {α : Type*} {f : α → String} {items : List α} :
    Without c (items.map f) ↔ ∀ item ∈ items, c ∉ (f item).toList :=
  List.forall_mem_map

theorem without_flatMap {α : Type*} {f : α → List String} {items : List α} :
    Without c (items.flatMap f) ↔ ∀ item ∈ items, Without c (f item) := by
  unfold Without
  simp only [List.mem_flatMap, forall_exists_index, and_imp]
  exact ⟨fun h item hitem line => h line item hitem, fun h line item hitem => h item hitem line⟩

/-- Strings put together lack a character if they and the mark between them do. -/
theorem not_mem_intercalate {mark : String} {pieces : List String} (hmark : c ∉ mark.toList)
    (hpieces : Without c pieces) : c ∉ (mark.intercalate pieces).toList := by
  intro h
  rcases Text.mem_toList_intercalate h with h | ⟨piece, hpiece, h⟩
  · exact hmark h
  · exact hpieces piece hpiece h

end Without

/-- Lines without line feeds are the first pieces of a text that starts with them. -/
theorem splitOn_flatMap_append {contents : List String} (h : Without '\n' contents)
    (s : List Char) :
    ((contents.flatMap fun line => line.toList ++ ['\n']) ++ s).splitOn '\n' =
      contents.map String.toList ++ s.splitOn '\n' := by
  induction contents with
  | nil => rfl
  | cons line rest ih =>
    obtain ⟨hline, hrest⟩ := without_cons.mp h
    rw [List.flatMap_cons, List.append_assoc, List.append_assoc, List.singleton_append,
      List.splitOn_append_cons_self_of_not_mem hline, ih hrest, List.map_cons, List.cons_append]

/-- Lines without line feeds are the pieces of their text between line feeds. -/
theorem splitOn_flatMap_of_without {contents : List String} (h : Without '\n' contents) :
    (contents.flatMap fun line => line.toList ++ ['\n']).splitOn '\n' =
      contents.map String.toList ++ [[]] := by
  simpa using splitOn_flatMap_append h []

/-! ## What holds no mark of a line -/

/-- The characters that end a line, that begin a comment and that begin a directive. -/
def IsLineMark (c : Char) : Prop :=
  c = '\n' ∨ c = '/' ∨ c = '#'

theorem isLineMark_feed : IsLineMark '\n' :=
  .inl rfl

section Marks

variable {c : Char} (hc : IsLineMark c)
include hc

theorem IsLineMark.not_mem_of_isTypeExpr {s : String} (h : isTypeExpr s = true) :
    c ∉ s.toList := by
  refine NodeSchema.not_mem_of_isTypeExpr h ?_
  rcases hc with rfl | rfl | rfl <;> decide

theorem IsLineMark.not_mem_of_isIdentifier {s : String} (h : isIdentifier s = true) :
    c ∉ s.toList :=
  hc.not_mem_of_isTypeExpr (isTypeExpr_of_isIdentifier h)

theorem IsLineMark.not_mem_comma : c ∉ ", ".toList := by
  rcases hc with rfl | rfl | rfl <;> decide

end Marks

section Settings

variable {settings : Settings} (h : settings.Usable)
include h

theorem not_mem_feed_guard : '\n' ∉ settings.guard.toList := by
  intro hc
  have := h.isNameChar_of_mem_guard hc
  revert this
  decide

/-- The namespace holds no mark of a line. -/
theorem not_mem_scope {c : Char} (hc : IsLineMark c) {scope : String}
    (hscope : scope? settings = some scope) : c ∉ scope.toList := by
  unfold scope? at hscope
  split at hscope
  · cases hscope
  · cases hscope
    refine not_mem_intercalate ?_ fun segment hsegment => ?_
    · rcases hc with rfl | rfl | rfl <;> decide
    · exact hc.not_mem_of_isIdentifier (h.isIdentifier_of_mem_scopeSegments hsegment).1

theorem not_mem_feed_includeLine {header : String} (hheader : header ∈ settings.includes) :
    '\n' ∉ (includeLine header).toList := by
  have hfeed : '\n' ∉ header.toList := fun hc =>
    (Settings.ne_of_mem_isHeader (h.includes header hheader) _ hc).1 rfl
  unfold includeLine
  split_ifs <;> simp [hfeed]

theorem without_preamble : Without '\n' (preamble settings) := by
  simp only [preamble, without_append, without_map]
  refine ⟨⟨⟨⟨?_, ?_⟩, fun header => not_mem_feed_includeLine h⟩, ?_⟩, ?_⟩
  · simp [without_cons, without_nil, not_mem_feed_guard h]
  · simp [standardIncludes]
  · simp [without_cons, without_nil]
  · split
    · exact without_nil
    · next scope hscope =>
      simp [without_cons, without_nil, not_mem_scope h isLineMark_feed hscope]

theorem without_trailer : Without '\n' (trailer settings) := by
  rw [trailer, without_append]
  refine ⟨?_, ?_⟩
  · split
    · exact without_nil
    · next scope hscope =>
      simp [without_cons, without_nil, not_mem_scope h isLineMark_feed hscope]
  · simp [without_cons, without_nil, not_mem_feed_guard h]

end Settings

section Sections

variable {settings : Settings} {schema : Schema} {c : Char} (hc : IsLineMark c)
include hc

theorem not_mem_resultParam : c ∉ resultParam.toList := by
  rcases hc with rfl | rfl | rfl <;> decide

theorem not_mem_unionName (h : settings.Usable) : c ∉ settings.unionName.toList :=
  hc.not_mem_of_isIdentifier (Settings.isDeclarable_iff.mp h.unionName).1

theorem not_mem_visitorName (h : settings.Usable) : c ∉ settings.visitorName.toList :=
  hc.not_mem_of_isIdentifier (Settings.isDeclarable_iff.mp h.visitorName).1

theorem without_names (h : schema.Declarable settings) : Without c schema.names := by
  rw [h.names_eq, without_map]
  exact fun node hnode => hc.not_mem_of_isIdentifier (h.isIdentifier_name node hnode)

theorem without_forwardDeclarations (h : schema.Declarable settings) :
    Without c (forwardDeclarations schema) := by
  have hnames := without_names hc h
  rw [forwardDeclarations, without_append, without_map]
  refine ⟨fun name hname => ?_, ?_⟩
  · have := hnames name hname
    rcases hc with rfl | rfl | rfl <;> simp [this]
  · split_ifs <;> simp [without_cons, without_nil]

theorem without_unionAlias (hsettings : settings.Usable) (h : schema.Declarable settings) :
    Without c (unionAlias settings schema) := by
  have halternatives : c ∉ (alternatives schema).toList := by
    unfold alternatives
    split_ifs
    · rcases hc with rfl | rfl | rfl <;> decide
    · exact not_mem_intercalate hc.not_mem_comma (without_names hc h)
  have hunion := not_mem_unionName hc hsettings
  rcases hc with rfl | rfl | rfl <;>
    simp [unionAlias, without_cons, without_nil, halternatives, hunion]

theorem without_visitor (hsettings : settings.Usable) (h : schema.Declarable settings) :
    Without c (visitor settings schema) := by
  have hresult := not_mem_resultParam hc
  have hvisitor := not_mem_visitorName hc hsettings
  have hnames := without_names hc h
  simp only [visitor, without_append, without_map]
  refine ⟨⟨⟨?_, ?_⟩, fun name hname => ?_⟩, ?_⟩
  · rcases hc with rfl | rfl | rfl <;> simp [without_cons, without_nil, hresult, hvisitor]
  · split_ifs <;> simp [without_cons, without_nil]
  · have := hnames name hname
    unfold visitLine
    rcases hc with rfl | rfl | rfl <;> simp [hresult, this]
  · rcases hc with rfl | rfl | rfl <;> simp [without_cons, without_nil]

theorem without_dispatch (hsettings : settings.Usable) :
    Without c (dispatch settings schema) := by
  have hresult := not_mem_resultParam hc
  have hunion := not_mem_unionName hc hsettings
  have hvisitor := not_mem_visitorName hc hsettings
  unfold dispatch
  split_ifs
  · exact without_nil
  · rcases hc with rfl | rfl | rfl <;>
      simp [without_cons, without_nil, hresult, dispatchName, hunion, hvisitor]

theorem not_mem_parameter {field : Field} (htype : isTypeExpr field.type = true)
    (hname : isIdentifier field.name = true) : c ∉ (parameter settings schema field).toList := by
  have hmember : isTypeExpr (memberType settings schema field) = true := isTypeExpr_memberType htype
  have htype := hc.not_mem_of_isTypeExpr hmember
  have hname := hc.not_mem_of_isIdentifier hname
  rcases hc with rfl | rfl | rfl <;> simp [parameter, htype, hname]

theorem not_mem_initializer {field : Field} (hname : isIdentifier field.name = true) :
    c ∉ (initializer field).toList := by
  have hname := hc.not_mem_of_isIdentifier hname
  rcases hc with rfl | rfl | rfl <;> simp [initializer, hname]

theorem without_classBody {node : Node} (hname : isIdentifier node.name = true)
    (htype : ∀ field ∈ node.fields, isTypeExpr field.type = true)
    (hfield : ∀ field ∈ node.fields, isIdentifier field.name = true) :
    Without c (classBody settings schema node) := by
  have hname := hc.not_mem_of_isIdentifier hname
  have hparameter : ∀ field ∈ node.fields, c ∉ (parameter settings schema field).toList :=
    fun field hmem => not_mem_parameter hc (htype field hmem) (hfield field hmem)
  have hinitializer : ∀ field ∈ node.fields, c ∉ (initializer field).toList :=
    fun field hmem => not_mem_initializer hc (hfield field hmem)
  have hparameters := not_mem_intercalate hc.not_mem_comma (without_map.mpr hparameter)
  have hinitializers := not_mem_intercalate hc.not_mem_comma (without_map.mpr hinitializer)
  unfold classBody
  split
  · rcases hc with rfl | rfl | rfl <;> simp [without_cons, without_nil, hname]
  · dsimp only
    rw [without_append, without_map]
    refine ⟨?_, fun field hmem => ?_⟩
    · split_ifs <;> rcases hc with rfl | rfl | rfl <;>
        simp [without_cons, without_nil, hname, hparameters, hinitializers,
          -String.toList_intercalate]
    · have := hparameter field hmem
      rcases hc with rfl | rfl | rfl <;> simp [this]

theorem without_nodeClass (h : schema.Declarable settings) {node : Node}
    (hnode : node ∈ schema.nodes) : Without c (nodeClass settings schema node) := by
  have hname := h.isIdentifier_name node hnode
  simp only [nodeClass, without_append]
  refine ⟨⟨?_, without_classBody hc hname (h.isTypeExpr_type node hnode)
    (h.isIdentifier_field node hnode)⟩, ?_⟩
  · have := hc.not_mem_of_isIdentifier hname
    rcases hc with rfl | rfl | rfl <;> simp [without_cons, without_nil, this]
  · rcases hc with rfl | rfl | rfl <;> simp [without_cons, without_nil]

/-- No declaration holds a mark of a line. -/
theorem without_declarations (hsettings : settings.Usable) (h : schema.Declarable settings) :
    Without c (declarations settings schema) := by
  simp only [declarations, without_append, without_flatMap]
  exact ⟨⟨⟨⟨without_forwardDeclarations hc h, without_unionAlias hc hsettings h⟩,
    without_visitor hc hsettings h⟩, fun node => without_nodeClass hc h⟩,
    without_dispatch hc hsettings⟩

end Sections

section Rows

variable {settings : Settings} {schema : Schema}

/-- No line of a header holds a line feed. -/
theorem without_lines (hsettings : settings.Usable) (h : schema.Declarable settings) :
    Without '\n' (lines settings schema) := by
  rw [lines_eq, without_append, without_append]
  exact ⟨⟨without_preamble hsettings, without_declarations isLineMark_feed hsettings h⟩,
    without_trailer hsettings⟩

/-- The pieces of a text between its line feeds. -/
def rows (text : String) : List String :=
  (text.toList.splitOn '\n').map String.ofList

/-- The lines of a header are what stands between the line feeds of its text. -/
theorem rows_header (hsettings : settings.Usable) (h : schema.Declarable settings) :
    rows (schema.header settings) = lines settings schema ++ [""] := by
  rw [rows, toList_header, splitOn_flatMap_of_without (without_lines hsettings h),
    List.map_append, List.map_map]
  simp [Function.comp_def]

/-- Headers with the same text have the same lines. -/
theorem lines_eq_of_header_eq {a b : Schema} (hsettings : settings.Usable)
    (ha : a.Declarable settings) (hb : b.Declarable settings)
    (h : a.header settings = b.header settings) : lines settings a = lines settings b := by
  have hrows := congrArg rows h
  rwa [rows_header hsettings ha, rows_header hsettings hb, List.append_cancel_right_eq] at hrows

end Rows

end NodeSchema
