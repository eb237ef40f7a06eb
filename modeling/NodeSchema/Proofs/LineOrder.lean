import Mathlib.Data.List.Perm.Basic
import NodeSchema.Proofs.FirstFault
import NodeSchema.Proofs.Landmarks
import NodeSchema.Proofs.Layout
import NodeSchema.Proofs.Readback

/-!
# The order of the lines of a schema

Whether a text is accepted does not depend on the order of its lines : each line is read by
itself, and names that differ do so in any order (`exists_readLines_of_perm`). The nodes that
are read are then the same up to their order and the numbers of their lines.

A header is a frame of lines that name no node (`Frame`), filled with a forward declaration, an
alternative of the union, a member function of the visitor and a class for each node. The frame
is the same for all schemas with nodes, and a class refers to the other nodes by asking whether
there is one of a name (`nodeClass_congr`), never whether it came before. So the header of a
rearranged schema is the rearranged header (`header_rearranged`).
-/

namespace NodeSchema

open Header Text

/-! ## What a node declares -/

/-- What a node declares, wherever its line stands. -/
def Node.declared (node : Node) : String × List Field :=
  (node.name, node.fields)

theorem map_name_of_map_declared {a b : List Node}
    (h : a.map Node.declared = b.map Node.declared) : a.map Node.name = b.map Node.name := by
  simpa [Node.declared, Function.comp_def] using congrArg (List.map Prod.fst) h

/-! ## Lines in another order -/

/-- The rows that are not blank. -/
def writtenRows (rows : List (List Char)) : List (List Char) :=
  rows.filter fun row => !row.all isBlank

theorem map_fst_definingLines (line : Nat) (rows : List (List Char)) :
    (definingLines line rows).map Prod.fst = writtenRows rows := by
  calc (definingLines line rows).map Prod.fst
      = ((rows.zipIdx line).map Prod.fst).filter fun row => !row.all isBlank := by
        rw [List.filter_map]
        rfl
    _ = writtenRows rows := by rw [List.zipIdx_map_fst, writtenRows]

section Rows

variable {settings : Settings}

/-- The nodes of a run, read on its rows with the numbers that they have in the nodes. -/
theorem forall₂_writtenRows {line : Nat} {rows : List (List Char)} {nodes : List Node}
    (h : List.Forall₂ (fun entry node => readNode settings entry.2 entry.1 = .ok node)
      (definingLines line rows) nodes) :
    List.Forall₂ (fun row node => readNode settings node.line row = .ok node)
      (writtenRows rows) nodes := by
  rw [← map_fst_definingLines line, List.forall₂_map_left_iff]
  exact h.imp fun entry node hread => by rwa [line_of_readNode hread]

/-- Rows that can be read with some numbers can be read with their own, as nodes that declare
the same. -/
theorem exists_forall₂_of_map_fst {entries : List (List Char × Nat)} {moved : List Node}
    (h : List.Forall₂ (fun row node => readNode settings node.line row = .ok node)
      (entries.map Prod.fst) moved) :
    ∃ nodes, List.Forall₂ (fun entry node => readNode settings entry.2 entry.1 = .ok node)
      entries nodes ∧ nodes.map Node.declared = moved.map Node.declared := by
  induction entries generalizing moved with
  | nil =>
    cases h
    exact ⟨[], .nil, rfl⟩
  | cons entry rest ih =>
    obtain _ | @⟨_, node, _, moved, hread, hrest⟩ := h
    obtain ⟨nodes, hnodes, hdeclared⟩ := ih hrest
    have hentry : readNode settings entry.2 entry.1 = .ok { node with line := entry.2 } := by
      rw [← readNode_map_line settings node.line entry.2, hread]
      rfl
    exact ⟨_, .cons hentry hnodes, by rw [List.map_cons, List.map_cons, hdeclared]; rfl⟩

/-- If rows are accepted, so are they in any other order, and with other blank rows between
them; the nodes come in the order of their rows. -/
theorem exists_readLines_of_perm {rows others : List (List Char)} {nodes : List Node}
    (hperm : (writtenRows others).Perm (writtenRows rows))
    (h : readLines settings Schema.empty 1 rows = .ok (.ofNodes nodes)) :
    ∃ moved found : List Node, moved.Perm nodes ∧
      found.map Node.declared = moved.map Node.declared ∧
      readLines settings Schema.empty 1 others = .ok (.ofNodes found) := by
  have hrun := fun texts schema => @readLines_eq_ok_iff settings 1 texts [] schema (by simp)
  obtain ⟨same, hsame, hlines, hnodup⟩ := (hrun _ _).mp h
  rw [List.nil_append] at hsame hnodup
  have hnodes : nodes = same := by
    rw [← Schema.nodes_ofNodes nodes, hsame, Schema.nodes_ofNodes]
  subst hnodes
  obtain ⟨moved, hmoved, hperm⟩ := List.perm_comp_forall₂ hperm (forall₂_writtenRows hlines)
  rw [← map_fst_definingLines 1] at hmoved
  obtain ⟨found, hfound, hdeclared⟩ := exists_forall₂_of_map_fst hmoved
  refine ⟨moved, found, hperm, hdeclared, (hrun _ _).mpr ⟨found, rfl, hfound, ?_⟩⟩
  rw [List.nil_append, map_name_of_map_declared hdeclared]
  exact (hperm.map Node.name).nodup_iff.mpr hnodup

end Rows

/-! ## Headers as filled frames -/

/-- The lines of a header that name no node, in the places between those that do. -/
structure Frame where
  /-- The lines before the forward declarations. -/
  start : List String
  /-- The lines between the forward declarations and the union. -/
  afterForward : List String
  /-- The lines between the union and the member functions of the visitor. -/
  afterUnion : List String
  /-- The lines between the member functions of the visitor and the classes. -/
  afterVisits : List String
  /-- The lines behind the classes. -/
  finish : List String

/-- The frame, filled with what is written of each node : a forward declaration, an alternative
of the union, a member function of the visitor, and the lines of its class. -/
def Frame.fill (frame : Frame) (settings : Settings) (block : Node → List String)
    (nodes : List Node) : List String :=
  frame.start
    ++ nodes.map (fun node => "class " ++ node.name ++ ";")
    ++ frame.afterForward
    ++ ["using " ++ settings.unionName ++ " = std::variant<"
      ++ (if nodes = [] then "std::monostate" else ", ".intercalate (nodes.map Node.name)) ++ ">;"]
    ++ frame.afterUnion
    ++ nodes.map (fun node =>
        "    virtual R visit(const " ++ node.name ++ "&) \x7b return R(); \x7d")
    ++ frame.afterVisits
    ++ nodes.flatMap block
    ++ frame.finish

/-- The frame of the headers of schemas with nodes, or of the one without. -/
def frameOf (settings : Settings) (schema : Schema) : Frame where
  start := preamble settings
  afterForward := if schema.isEmpty then [] else [""]
  afterUnion :=
    ["", "template <typename R>", "class " ++ settings.visitorName ++ " \x7b", "public:",
      "    virtual ~" ++ settings.visitorName ++ "() = default;"]
      ++ if schema.isEmpty then [] else [""]
  afterVisits := ["\x7d;", ""]
  finish := dispatch settings schema ++ trailer settings ++ [""]

section Frame

variable {settings : Settings} {a b : Schema}

theorem frameOf_congr (h : a.isEmpty = b.isEmpty) : frameOf settings a = frameOf settings b := by
  simp only [frameOf, dispatch, h]

/-- The header of a schema is its frame, filled with its nodes. -/
theorem rows_header_eq_fill (hsettings : settings.Usable) (h : a.Declarable settings) :
    rows (a.header settings) =
      (frameOf settings a).fill settings (nodeClass settings a) a.nodes := by
  have hempty : a.isEmpty = true ↔ a.nodes = [] := by
    simp [Schema.isEmpty, Schema.nodes]
  have hvisit : ∀ name, visitLine name =
      "    virtual R visit(const " ++ name ++ "&) \x7b return R(); \x7d" :=
    visitLine_eq settings a
  rw [rows_header hsettings h]
  simp only [Header.lines, forwardDeclarations, unionAlias, alternatives, visitor, hvisit,
    h.names_eq, List.map_map, Function.comp_def, Frame.fill, frameOf, hempty]
  simp [resultParam]

/-- A class asks of the other nodes only whether there is one of a name. -/
theorem nodeClass_congr (h : ∀ name, name ∈ a.names ↔ name ∈ b.names) {node other : Node}
    (hdeclared : node.declared = other.declared) :
    nodeClass settings a node = nodeClass settings b other := by
  obtain ⟨hname, hfields⟩ := Prod.mk.inj hdeclared
  rw [nodeClass, nodeClass, classBody_eq, classBody_eq, members, members, member_congr h, hname,
    hfields]

theorem map_nodeClass_congr (h : ∀ name, name ∈ a.names ↔ name ∈ b.names)
    {nodes others : List Node} (hdeclared : nodes.map Node.declared = others.map Node.declared) :
    nodes.map (nodeClass settings a) = others.map (nodeClass settings b) := by
  induction nodes generalizing others with
  | nil =>
    rw [List.map_eq_nil_iff.mp hdeclared.symm]
    rfl
  | cons node rest ih =>
    obtain ⟨other, others, rfl, hother, hothers⟩ := List.map_eq_cons_iff.mp hdeclared.symm
    rw [List.map_cons, List.map_cons, nodeClass_congr h hother.symm, ih hothers.symm]

/-- A frame is filled alike by nodes with the same names and the same classes. -/
theorem Frame.fill_congr (frame : Frame) {block other : Node → List String}
    {nodes others : List Node} (hname : nodes.map Node.name = others.map Node.name)
    (hblock : nodes.map block = others.map other) :
    frame.fill settings block nodes = frame.fill settings other others := by
  have hempty : nodes = [] ↔ others = [] := by
    rw [← List.map_eq_nil_iff (f := Node.name), hname, List.map_eq_nil_iff]
  have hmap : ∀ f : String → String,
      nodes.map (fun node => f node.name) = others.map fun node => f node.name := by
    intro f
    simpa [Function.comp_def] using congrArg (List.map f) hname
  rw [Frame.fill, Frame.fill, hmap fun name => "class " ++ name ++ ";",
    hmap fun name => "    virtual R visit(const " ++ name ++ "&) \x7b return R(); \x7d", hname,
    List.flatMap_def, List.flatMap_def, hblock]
  simp only [hempty]

end Frame

/-! ## Rearranged headers -/

/-- The second schema and its header are those of the first with the nodes in the order `moved`,
apart from the numbers of the nodes' lines. The class of a node is the same in both headers, and
so are all lines outside of the parts that are moved. -/
structure Rearranged (settings : Settings) (first second : Schema) (moved : List Node) : Prop where
  perm : moved.Perm first.nodes
  declared : second.nodes.map Node.declared = moved.map Node.declared
  sameClass : ∀ node ∈ first.nodes, ∀ other ∈ second.nodes, other.name = node.name →
    nodeClass settings second other = nodeClass settings first node
  headers : ∃ frame : Frame,
    rows (first.header settings) =
      frame.fill settings (nodeClass settings first) first.nodes ∧
    rows (second.header settings) =
      frame.fill settings (nodeClass settings first) moved

theorem rearranged_of_declared {settings : Settings} {first second : Schema} {moved : List Node}
    (hsettings : settings.Usable) (hfirst : first.Declarable settings)
    (hsecond : second.Declarable settings) (hperm : moved.Perm first.nodes)
    (hdeclared : second.nodes.map Node.declared = moved.map Node.declared) :
    Rearranged settings first second moved := by
  have hname := map_name_of_map_declared hdeclared
  have hnames : second.names.Perm first.names := by
    rw [hsecond.names_eq, hfirst.names_eq, hname]
    exact hperm.map Node.name
  have hmem : ∀ name, name ∈ second.names ↔ name ∈ first.names := fun _ => hnames.mem_iff
  have hempty : second.isEmpty = first.isEmpty := by
    rw [isEmpty_eq_isEmpty_names, isEmpty_eq_isEmpty_names, hnames.isEmpty_eq]
  refine ⟨hperm, hdeclared, fun node hnode other hother heq => ?_, frameOf settings first,
    rows_header_eq_fill hsettings hfirst, ?_⟩
  · -- the node that was moved to where `other` stands is `node`, since it has its name
    have hother : other.declared ∈ moved.map Node.declared :=
      hdeclared ▸ List.mem_map_of_mem hother
    obtain ⟨same, hsame, hsameDeclared⟩ := List.mem_map.mp hother
    have hsameName : same.name = node.name := (Prod.mk.inj hsameDeclared).1.trans heq
    have := List.inj_on_of_nodup_map hfirst.nodup (hperm.mem_iff.mp hsame) hnode hsameName
    rw [← this]
    exact nodeClass_congr hmem hsameDeclared.symm
  · rw [rows_header_eq_fill hsettings hsecond, frameOf_congr hempty]
    exact Frame.fill_congr _ hname (map_nodeClass_congr hmem hdeclared)

/-- The order of the lines of a text makes no difference but to the order of what is written for
them : a text is accepted in any order of its rows or in none, and the header is rearranged like
them. -/
theorem header_rearranged {settings : Settings} (hcheck : settings.check = .ok ())
    {texts others : List (List Char)} (hfeed : ∀ text ∈ texts, '\n' ∉ text)
    (hfeedOthers : ∀ text ∈ others, '\n' ∉ text)
    (hperm : (writtenRows texts).Perm (writtenRows others)) :
    ((∃ schema, Schema.read settings (textOfRows texts) = .ok schema) ↔
      ∃ schema, Schema.read settings (textOfRows others) = .ok schema) ∧
    ∀ first second, Schema.read settings (textOfRows texts) = .ok first →
      Schema.read settings (textOfRows others) = .ok second →
      ∃ moved, Rearranged settings first second moved := by
  have hsettings := Settings.check_eq_ok_iff.mp hcheck
  have hread := @read_textOfRows settings hsettings.separator texts hfeed
  have hreadOthers := @read_textOfRows settings hsettings.separator others hfeedOthers
  have hofNodes : ∀ {source schema}, Schema.read settings source = .ok schema →
      schema = .ofNodes schema.nodes :=
    fun h => (declarable_of_read hcheck h).keyed
  refine ⟨⟨fun ⟨schema, h⟩ => ?_, fun ⟨schema, h⟩ => ?_⟩, fun first second hfirst hsecond => ?_⟩
  · rw [hofNodes h, hread] at h
    obtain ⟨-, found, -, -, hfound⟩ := exists_readLines_of_perm hperm.symm h
    exact ⟨_, hreadOthers.trans hfound⟩
  · rw [hofNodes h, hreadOthers] at h
    obtain ⟨-, found, -, -, hfound⟩ := exists_readLines_of_perm hperm h
    exact ⟨_, hread.trans hfound⟩
  · have hfirstDeclarable := declarable_of_read hcheck hfirst
    have hsecondDeclarable := declarable_of_read hcheck hsecond
    rw [hofNodes hfirst, hread] at hfirst
    obtain ⟨moved, found, hmoved, hdeclared, hfound⟩ := exists_readLines_of_perm hperm.symm hfirst
    obtain rfl := Except.ok.inj (hsecond.symm.trans (hreadOthers.trans hfound))
    rw [← Schema.nodes_ofNodes found] at hdeclared
    exact ⟨moved, rearranged_of_declared hsettings hfirstDeclarable hsecondDeclarable hmoved
      hdeclared⟩

/-- A node that refers to one on a later line and to itself, before and behind that line. -/
theorem header_rearranged_forward :
    Settings.standard.check = .ok () ∧
      ∃ first second,
        Schema.read .standard (textOfRows ["list | item head, list tail".toList, "item".toList]) =
          .ok first ∧
        Schema.read .standard
          (textOfRows ["item".toList, " ".toList, "list | item head, list tail".toList]) =
            .ok second ∧
        ∃ moved, Rearranged .standard first second moved := by
  have hfirst : Schema.read .standard
      (textOfRows ["list | item head, list tail".toList, "item".toList]) =
        .ok (.ofNodes [⟨"list", [⟨"item", "head"⟩, ⟨"list", "tail"⟩], 1⟩, ⟨"item", [], 2⟩]) := by
    decide
  have hsecond : Schema.read .standard
      (textOfRows ["item".toList, " ".toList, "list | item head, list tail".toList]) =
        .ok (.ofNodes [⟨"item", [], 1⟩, ⟨"list", [⟨"item", "head"⟩, ⟨"list", "tail"⟩], 3⟩]) := by
    decide
  exact ⟨by decide, _, _, hfirst, hsecond,
    (header_rearranged (by decide) (by decide) (by decide) (by decide)).2 _ _ hfirst hsecond⟩

end NodeSchema
