import Mathlib.Data.List.Nodup
import NodeSchema.Proofs.HeaderText

/-!
# The order of a header

A landmark is a line that begins a declaration of a header : the forward declaration of a
node, the alias of the union, the first line of a class, the visitor's member function for
a node, the heading of `dispatch` (`Landmark`). The other lines of a header are told from
them by their first characters (`isLandmark`), so the landmarks can be filtered out of the
text of a header, and they come in one order (`filter_rows`).

`header_order` : the landmarks of a header are those of its schema, section by section and
in the order of the schema, and each of them stands on exactly one line.
-/

namespace NodeSchema

open Header

/-- A line that begins a declaration. -/
inductive Landmark where
  /-- The forward declaration of a node. -/
  | forward (name : String)
  /-- The alias of the union. -/
  | union
  /-- The first line of the class of a node, or of the visitor. -/
  | opening (name : String)
  /-- The visitor's member function for a node. -/
  | visit (name : String)
  /-- The heading of the function that forwards a union value. -/
  | dispatch
deriving DecidableEq

/-- The line of a landmark. -/
def Landmark.text (settings : Settings) (schema : Schema) : Landmark → String
  | forward name => "class " ++ name ++ ";"
  | union =>
    "using " ++ settings.unionName ++ " = std::variant<" ++ alternatives schema ++ ">;"
  | opening name => "class " ++ name ++ " \x7b"
  | visit name => "    virtual R visit(const " ++ name ++ "&) \x7b return R(); \x7d"
  | dispatch =>
    "R dispatch(" ++ settings.visitorName ++ "<R>& v, const " ++ settings.unionName
      ++ "& value) \x7b"

/-- The landmarks of a header, section by section : the forward declarations, the union,
the visitor, the classes of the nodes, and `dispatch` if there are nodes. -/
def landmarks (settings : Settings) (schema : Schema) : List Landmark :=
  schema.names.map .forward ++ [.union, .opening settings.visitorName]
    ++ schema.names.map .visit ++ schema.names.map .opening
    ++ if schema.isEmpty then [] else [.dispatch]

/-- Whether a line starts with the given characters. -/
def startsWith (start line : String) : Bool :=
  start.toList <+: line.toList

/-- Whether a line starts like a landmark. -/
def isLandmark (line : String) : Bool :=
  startsWith "class " line || startsWith "using " line || startsWith "R " line
    || startsWith "    virtual R " line

/-! ## Landmarks and other lines -/

section Text

variable (settings : Settings) (schema : Schema)

@[simp] theorem Landmark.text_forward (name : String) :
    (forward name).text settings schema = "class " ++ name ++ ";" := rfl

@[simp] theorem Landmark.text_union :
    union.text settings schema =
      "using " ++ settings.unionName ++ " = std::variant<" ++ alternatives schema ++ ">;" := rfl

@[simp] theorem Landmark.text_opening (name : String) :
    (opening name).text settings schema = "class " ++ name ++ " \x7b" := rfl

@[simp] theorem Landmark.text_visit (name : String) :
    (visit name).text settings schema =
      "    virtual R visit(const " ++ name ++ "&) \x7b return R(); \x7d" := rfl

@[simp] theorem Landmark.text_dispatch :
    dispatch.text settings schema =
      "R dispatch(" ++ settings.visitorName ++ "<R>& v, const " ++ settings.unionName
        ++ "& value) \x7b" := rfl

theorem isLandmark_text (landmark : Landmark) :
    isLandmark (landmark.text settings schema) = true := by
  cases landmark <;> simp [isLandmark, startsWith]

/-- Landmarks can be told apart by their lines : two of the same kind by the name, others by
the first and the last character. -/
theorem Landmark.text_injective : Function.Injective (text settings schema) := by
  intro a b h
  have hends := congrArg (fun line : String => (line.toList.head?, line.toList.getLast?)) h
  cases a <;> cases b
  case forward.forward | opening.opening | visit.visit => simpa using h
  case union.union | dispatch.dispatch => rfl
  all_goals simp [List.getLast?_cons] at hends

end Text

section Names

variable {settings : Settings} {schema : Schema}

theorem visitorName_not_mem_names (hschema : schema.Declarable settings) :
    settings.visitorName ∉ schema.names := by
  rw [hschema.names_eq, List.mem_map]
  rintro ⟨node, hnode, heq⟩
  refine (hschema.node node hnode).not_generated ?_
  simp [heq, Settings.generatedNames]

/-- Every landmark of a header is there once. -/
theorem nodup_landmarks (hschema : schema.Declarable settings) :
    (landmarks settings schema).Nodup := by
  have hnames : schema.names.Nodup := hschema.names_eq ▸ hschema.nodup
  have hforward : (schema.names.map Landmark.forward).Nodup :=
    hnames.map fun _ _ => Landmark.forward.inj
  have hvisit : (schema.names.map Landmark.visit).Nodup :=
    hnames.map fun _ _ => Landmark.visit.inj
  have hopening : (schema.names.map Landmark.opening).Nodup :=
    hnames.map fun _ _ => Landmark.opening.inj
  have happart : settings.visitorName ∉ schema.names := visitorName_not_mem_names hschema
  unfold landmarks
  simp only [List.nodup_append]
  grind

end Names

/-! ## The lines of a class -/

/-- What ends before a mark that the start has not is where the start ends too. -/
theorem prefix_of_append_cons {α : Type*} {start s t : List α} (mark : α) (hmark : mark ∉ start)
    (h : start <+: s ++ mark :: t) : start <+: s := by
  obtain ⟨rest, heq⟩ := h
  rcases List.append_eq_append_iff.mp heq with ⟨between, rfl, -⟩ | ⟨between, rfl, hbetween⟩
  · exact List.prefix_append _ _
  · cases between with
    | nil => simp
    | cons c between =>
      obtain ⟨rfl, -⟩ := List.cons.inj hbetween
      simp at hmark

section Classes

variable {settings : Settings} {schema : Schema} {node : Node}

/-- An indented line is a landmark if it goes on like the visitor's member functions. -/
theorem isLandmark_indented (line : String) :
    isLandmark ("    " ++ line) = true ↔ "virtual R ".toList <+: line.toList := by
  simp [isLandmark, startsWith]

/-- A constructor does not start like a member function of the visitor. -/
theorem isLandmark_constructor {name : String} (hname : isIdentifier name = true) (rest : String) :
    isLandmark ("    " ++ (name ++ "(" ++ rest)) = false := by
  rw [← Bool.not_eq_true, isLandmark_indented]
  intro h
  have hspace : ' ' ∉ name.toList :=
    not_mem_of_isTypeExpr (isTypeExpr_of_isIdentifier hname) (by decide)
  have hstart : "virtual R ".toList <+: name.toList := by
    have h : "virtual R ".toList <+: name.toList ++ '(' :: rest.toList := by simpa using h
    exact prefix_of_append_cons '(' (by decide) h
  exact hspace (hstart.subset (by decide))

/-- Neither does a member : it has one space only. -/
theorem isLandmark_member {type name : String} (htype : isTypeExpr type = true)
    (hname : isIdentifier name = true) :
    isLandmark ("    " ++ (type ++ " " ++ name ++ ";")) = false := by
  rw [← Bool.not_eq_true, isLandmark_indented]
  intro h
  have hstart : "virtual R ".toList <+: type.toList ++ ' ' :: name.toList := by
    have h : "virtual R ".toList <+: type.toList ++ ' ' :: name.toList ++ ';' :: [] := by
      simpa using h
    exact prefix_of_append_cons ';' (by decide) h
  have htypeSpaces : type.toList.count ' ' = 0 :=
    List.count_eq_zero.mpr (not_mem_of_isTypeExpr htype (by decide))
  have hnameSpaces : name.toList.count ' ' = 0 :=
    List.count_eq_zero.mpr (not_mem_of_isTypeExpr (isTypeExpr_of_isIdentifier hname) (by decide))
  have hle := hstart.sublist.count_le ' '
  have htwo : "virtual R ".toList.count ' ' = 2 := by decide
  rw [List.count_append, List.count_cons_self, htypeSpaces, hnameSpaces, htwo] at hle
  omega

theorem isLandmark_of_mem_classBody (hname : isIdentifier node.name = true)
    (htype : ∀ field ∈ node.fields, isTypeExpr field.type = true)
    (hfield : ∀ field ∈ node.fields, isIdentifier field.name = true) {line : String}
    (hline : line ∈ classBody settings schema node) : isLandmark line = false := by
  unfold classBody at hline
  split at hline
  · rw [List.mem_singleton] at hline
    simpa [hline, String.append_assoc] using isLandmark_constructor hname ") = default;"
  · dsimp only at hline
    rw [List.mem_append, List.mem_map] at hline
    rcases hline with hline | ⟨field, hmem, rfl⟩
    · simp only [List.mem_cons, List.not_mem_nil, or_false] at hline
      rcases hline with rfl | rfl | rfl
      · split_ifs
        · simp [isLandmark, startsWith]
        · simpa [String.append_assoc] using isLandmark_constructor hname _
      · simp [isLandmark, startsWith]
      · decide
    · have hmember : isTypeExpr (memberType settings schema field) = true :=
        isTypeExpr_memberType (htype field hmem)
      simpa [parameter, String.append_assoc] using isLandmark_member hmember (hfield field hmem)

theorem filter_nodeClass (hschema : schema.Declarable settings) (hnode : node ∈ schema.nodes) :
    (nodeClass settings schema node).filter isLandmark =
      [(Landmark.opening node.name).text settings schema] := by
  have hbody : (classBody settings schema node).filter isLandmark = [] := by
    rw [List.filter_eq_nil_iff]
    intro line hline
    rw [isLandmark_of_mem_classBody (hschema.isIdentifier_name node hnode)
      (hschema.isTypeExpr_type node hnode) (hschema.isIdentifier_field node hnode) hline]
    exact Bool.false_ne_true
  have hopening : isLandmark ("class " ++ node.name ++ " \x7b") = true :=
    isLandmark_text settings schema (.opening node.name)
  have hpublic : isLandmark "public:" = false := by decide
  have hclosing : isLandmark "\x7d;" = false := by decide
  have hblank : isLandmark "" = false := by decide
  simp [nodeClass, hbody, hopening, hpublic, hclosing, hblank]

end Classes

/-! ## The sections of a header -/

section Sections

variable (settings : Settings) (schema : Schema)

theorem isLandmark_blank : isLandmark "" = false := by
  decide

theorem filter_preamble : (preamble settings).filter isLandmark = [] := by
  rw [List.filter_eq_nil_iff]
  intro line hline
  simp only [preamble, List.mem_append, List.mem_map] at hline
  rcases hline with (((hline | ⟨header, -, rfl⟩) | ⟨header, -, rfl⟩) | hline) | hline
  · simp only [List.mem_cons, List.not_mem_nil, or_false] at hline
    rcases hline with rfl | rfl | rfl | rfl <;> simp [isLandmark, startsWith]
  · simp [isLandmark, startsWith]
  · unfold includeLine
    split_ifs <;> simp [isLandmark, startsWith]
  · rw [List.mem_singleton.mp hline, isLandmark_blank]
    exact Bool.false_ne_true
  · split at hline
    · cases hline
    · simp only [List.mem_cons, List.not_mem_nil, or_false] at hline
      rcases hline with rfl | rfl <;> simp [isLandmark, startsWith]

theorem filter_trailer : (trailer settings).filter isLandmark = [] := by
  rw [List.filter_eq_nil_iff]
  intro line hline
  rw [trailer, List.mem_append] at hline
  rcases hline with hline | hline
  · split at hline
    · cases hline
    · simp only [List.mem_cons, List.not_mem_nil, or_false] at hline
      rcases hline with rfl | rfl <;> simp [isLandmark, startsWith]
  · rw [List.mem_singleton.mp hline]
    simp [isLandmark, startsWith]

/-- Lines that are landmarks all stay. -/
theorem filter_map_text (kind : String → Landmark) (names : List String) :
    (names.map fun name => (kind name).text settings schema).filter isLandmark =
      (names.map kind).map (Landmark.text settings schema) := by
  rw [List.filter_eq_self.mpr (List.forall_mem_map.mpr fun name _ => isLandmark_text ..),
    List.map_map]
  rfl

theorem filter_forwardDeclarations :
    (forwardDeclarations schema).filter isLandmark =
      (schema.names.map Landmark.forward).map (Landmark.text settings schema) := by
  rw [← filter_map_text, forwardDeclarations, List.filter_append]
  split_ifs <;> simp [isLandmark_blank]

theorem filter_unionAlias :
    (unionAlias settings schema).filter isLandmark = [Landmark.union.text settings schema] := by
  have hunion := isLandmark_text settings schema .union
  rw [Landmark.text_union] at hunion
  simp [unionAlias, hunion, isLandmark_blank]

theorem visitLine_eq (name : String) :
    visitLine name = (Landmark.visit name).text settings schema := by
  unfold visitLine
  apply String.toList_injective
  simp [resultParam]

theorem filter_visitor :
    (visitor settings schema).filter isLandmark =
      (.opening settings.visitorName :: schema.names.map Landmark.visit).map
        (Landmark.text settings schema) := by
  have hopening := isLandmark_text settings schema (.opening settings.visitorName)
  rw [Landmark.text_opening] at hopening
  have htemplate : isLandmark ("template <typename " ++ resultParam ++ ">") = false := by decide
  have hdestructor :
      isLandmark ("    virtual ~" ++ settings.visitorName ++ "() = default;") = false := by
    simp [isLandmark, startsWith]
  have hpublic : isLandmark "public:" = false := by decide
  have hclosing : isLandmark "\x7d;" = false := by decide
  have hvisit : schema.names.map visitLine =
      schema.names.map fun name => (Landmark.visit name).text settings schema :=
    List.map_congr_left fun name _ => visitLine_eq settings schema name
  rw [List.map_cons, ← filter_map_text, ← hvisit, visitor]
  split_ifs <;> simp [hopening, htemplate, hdestructor, hpublic, hclosing, isLandmark_blank]

theorem filter_dispatch :
    (dispatch settings schema).filter isLandmark =
      (if schema.isEmpty then [] else [Landmark.dispatch]).map (Landmark.text settings schema) := by
  have hheading : resultParam ++ " " ++ dispatchName ++ "(" ++ settings.visitorName ++ "<"
      ++ resultParam ++ ">& v, const " ++ settings.unionName ++ "& value) \x7b" =
      Landmark.dispatch.text settings schema := by
    apply String.toList_injective
    simp [resultParam, dispatchName]
  have htemplate : isLandmark ("template <typename " ++ resultParam ++ ">") = false := by decide
  have hreturn : isLandmark ("    return std::visit([&v](const auto& alternative) -> "
      ++ resultParam ++ " \x7b return v.visit(alternative); \x7d, value);") = false := by
    simp [isLandmark, startsWith]
  have hclosing : isLandmark "\x7d" = false := by decide
  unfold dispatch
  split_ifs
  · rfl
  · rw [hheading, List.filter_cons_of_neg (by simp [htemplate]),
      List.filter_cons_of_pos (isLandmark_text ..), List.filter_cons_of_neg (by simp [hreturn]),
      List.filter_cons_of_neg (by simp [hclosing]),
      List.filter_cons_of_neg (by simp [isLandmark_blank])]
    rfl

end Sections

section Header

variable {settings : Settings} {schema : Schema}

/-- The landmarks among the lines of a header. -/
theorem filter_lines (h : schema.Declarable settings) :
    (lines settings schema).filter isLandmark =
      (landmarks settings schema).map (Landmark.text settings schema) := by
  have hclasses : (schema.nodes.flatMap (nodeClass settings schema)).filter isLandmark =
      (schema.names.map Landmark.opening).map (Landmark.text settings schema) := by
    rw [List.filter_flatMap, List.flatMap_congr fun node hnode => filter_nodeClass h hnode,
      h.names_eq, List.map_map, List.map_map, ← List.map_eq_flatMap]
    rfl
  simp only [lines, List.filter_append, filter_preamble, filter_forwardDeclarations settings,
    filter_unionAlias, filter_visitor, hclasses, filter_dispatch, filter_trailer, landmarks,
    List.map_append]
  simp

/-- The landmarks among the lines of the text of a header. -/
theorem filter_rows (hsettings : settings.Usable) (h : schema.Declarable settings) :
    (rows (schema.header settings)).filter isLandmark =
      (landmarks settings schema).map (Landmark.text settings schema) := by
  rw [rows_header hsettings h, List.filter_append, filter_lines h]
  simp [isLandmark_blank]

/-- A landmark stands in a header exactly if it is one of its schema's. -/
theorem text_mem_rows_iff (hsettings : settings.Usable) (h : schema.Declarable settings)
    (landmark : Landmark) :
    landmark.text settings schema ∈ rows (schema.header settings) ↔
      landmark ∈ landmarks settings schema := by
  have hinjective := Landmark.text_injective settings schema
  rw [← List.mem_map_of_injective hinjective, ← filter_rows hsettings h, List.mem_filter,
    and_iff_left (isLandmark_text settings schema landmark)]

/-- A landmark of the schema stands in its header once. -/
theorem count_text_rows (hsettings : settings.Usable) (h : schema.Declarable settings)
    (landmark : Landmark) (hmem : landmark ∈ landmarks settings schema) :
    (rows (schema.header settings)).count (landmark.text settings schema) = 1 := by
  have hinjective := Landmark.text_injective settings schema
  rw [← List.count_filter (isLandmark_text settings schema landmark), filter_rows hsettings h]
  exact List.count_eq_one_of_mem ((nodup_landmarks h).map hinjective)
    ((List.mem_map_of_injective hinjective).mpr hmem)

@[simp] theorem forward_mem_landmarks {name : String} :
    .forward name ∈ landmarks settings schema ↔ name ∈ schema.names := by
  unfold landmarks
  split_ifs <;> simp

@[simp] theorem visit_mem_landmarks {name : String} :
    .visit name ∈ landmarks settings schema ↔ name ∈ schema.names := by
  unfold landmarks
  split_ifs <;> simp

@[simp] theorem opening_mem_landmarks {name : String} :
    .opening name ∈ landmarks settings schema ↔
      name ∈ schema.names ∨ name = settings.visitorName := by
  unfold landmarks
  split_ifs <;> simp [or_comm]

@[simp] theorem union_mem_landmarks : .union ∈ landmarks settings schema := by
  simp [landmarks]

@[simp] theorem dispatch_mem_landmarks :
    .dispatch ∈ landmarks settings schema ↔ schema.isEmpty = false := by
  unfold landmarks
  split_ifs with h <;> simp [h]

/-- The placeholder stands for the alternatives exactly if there are none : no list of names
reads like it. -/
theorem alternatives_eq_placeholder_iff (h : schema.Declarable settings) :
    alternatives schema = "std::monostate" ↔ schema.isEmpty = true := by
  unfold alternatives
  split_ifs with hempty
  · simp [hempty]
  · refine iff_of_false (fun heq => ?_) hempty
    have hcolon : ':' ∈ (", ".intercalate schema.names).toList := by
      rw [heq]
      decide
    rcases Text.mem_toList_intercalate hcolon with hmark | ⟨name, hname, hmem⟩
    · simp at hmark
    · rw [h.names_eq, List.mem_map] at hname
      obtain ⟨node, hnode, rfl⟩ := hname
      have := isNameChar_of_mem (h.isIdentifier_name node hnode) hmem
      revert this
      decide

/-- Each node stands once in each section of a header, and nothing else does. The lines
that begin declarations come section by section, each section in the order of the schema. -/
structure HeaderOrder (settings : Settings) (schema : Schema) (rows : List String) : Prop where
  forward_once : ∀ name ∈ schema.names, rows.count ("class " ++ name ++ ";") = 1
  opening_once : ∀ name ∈ schema.names, rows.count ("class " ++ name ++ " \x7b") = 1
  visit_once : ∀ name ∈ schema.names,
    rows.count ("    virtual R visit(const " ++ name ++ "&) \x7b return R(); \x7d") = 1
  forward_only : ∀ name, "class " ++ name ++ ";" ∈ rows → name ∈ schema.names
  opening_only : ∀ name, "class " ++ name ++ " \x7b" ∈ rows →
    name ∈ schema.names ∨ name = settings.visitorName
  visit_only : ∀ name,
    "    virtual R visit(const " ++ name ++ "&) \x7b return R(); \x7d" ∈ rows →
      name ∈ schema.names
  alias_once : ∃ alternatives,
    rows.count ("using " ++ settings.unionName ++ " = std::variant<" ++ alternatives ++ ">;") = 1 ∧
      (alternatives = "std::monostate" ↔ schema.names = []) ∧
      (schema.names ≠ [] → alternatives = ", ".intercalate schema.names)
  dispatch_iff : "R dispatch(" ++ settings.visitorName ++ "<R>& v, const " ++ settings.unionName
    ++ "& value) \x7b" ∈ rows ↔ schema.names ≠ []
  order : rows.filter isLandmark = (landmarks settings schema).map (Landmark.text settings schema)

/-- The lines of a header are in order. -/
theorem header_order {source : String} (hcheck : settings.check = .ok ())
    (hread : Schema.read settings source = .ok schema) :
    HeaderOrder settings schema (rows (schema.header settings)) := by
  have hsettings := Settings.check_eq_ok_iff.mp hcheck
  have h := declarable_of_read hcheck hread
  have honce := count_text_rows hsettings h
  have honly := text_mem_rows_iff hsettings h
  have hempty : schema.isEmpty = true ↔ schema.names = [] := by
    simp [Schema.isEmpty, Schema.names]
  refine ⟨fun name hname => honce (.forward name) (forward_mem_landmarks.mpr hname),
    fun name hname => honce (.opening name) (opening_mem_landmarks.mpr (.inl hname)),
    fun name hname => honce (.visit name) (visit_mem_landmarks.mpr hname),
    fun name hrow => forward_mem_landmarks.mp ((honly (.forward name)).mp hrow),
    fun name hrow => opening_mem_landmarks.mp ((honly (.opening name)).mp hrow),
    fun name hrow => visit_mem_landmarks.mp ((honly (.visit name)).mp hrow),
    ⟨alternatives schema, honce .union union_mem_landmarks, ?_, ?_⟩, ?_,
    filter_rows hsettings h⟩
  · rw [alternatives_eq_placeholder_iff h, hempty]
  · intro hnames
    rw [alternatives, if_neg (by rwa [hempty])]
  · rw [← Landmark.text_dispatch settings schema, honly, dispatch_mem_landmarks,
      ← Bool.not_eq_true, not_congr hempty]

/-- A header with types and members that look like its landmarks : a member of type `class`,
one that seems to be virtual, and a node whose name starts with that of another. -/
theorem header_order_lookalikes :
    Settings.standard.check = .ok () ∧
      ∃ schema, Schema.read .standard "node | class other, virtual R\nnode_1\nnodes | node using_1" =
          .ok schema ∧
        HeaderOrder .standard schema (rows (schema.header .standard)) :=
  have hread :
      Schema.read .standard "node | class other, virtual R\nnode_1\nnodes | node using_1" =
        .ok (.ofNodes [⟨"node", [⟨"class", "other"⟩, ⟨"virtual", "R"⟩], 1⟩, ⟨"node_1", [], 2⟩,
          ⟨"nodes", [⟨"node", "using_1"⟩], 3⟩]) := by decide
  ⟨by decide, _, hread, header_order (by decide) hread⟩

end Header

end NodeSchema
