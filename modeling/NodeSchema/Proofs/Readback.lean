import NodeSchema.Proofs.HeaderText

/-!
# What a header says about its schema

The content of a header is the name of each node with its members, each member a name
and the type it has in the header (`Header.content`). Two headers with the same settings
have the same text exactly if they have the same content (`header_eq_header_iff`).

The content decides the text : what stands around the classes depends on the names of the
nodes only (`declarations_congr`), and the classes are written from the content
(`flatMap_nodeClass`). The text tells the content : it has its lines
(`lines_eq_of_header_eq`), its forward declarations have the names (`names_eq_of_lines_eq`),
a class goes up to the first line that closes it (`opening_inj`), and a member's type up to
the first space behind it (`declaration_inj`).
-/

namespace NodeSchema

namespace Header

/-- A member as its class has it : the name and the emitted type. -/
def member (settings : Settings) (schema : Schema) (field : Field) : String × String :=
  (field.name, memberType settings schema field)

/-- The members of a node, in the order of its constructor. -/
def members (settings : Settings) (schema : Schema) (node : Node) : List (String × String) :=
  node.fields.map (member settings schema)

/-- The names of the nodes in order, each with its members. -/
def content (settings : Settings) (schema : Schema) : List (String × List (String × String)) :=
  schema.nodes.map fun node => (node.name, members settings schema node)

/-- Type and name of a member, as a parameter or in a declaration. -/
def declaration (member : String × String) : String :=
  member.2 ++ " " ++ member.1

/-- The constructor and the members of a class, from its name and its members. -/
def bodyOf (name : String) : List (String × String) → List String
  | [] => ["    " ++ name ++ "() = default;"]
  | first :: rest =>
    ["    " ++ (if rest = [] then "explicit " else "") ++ name ++ "("
        ++ ", ".intercalate ((first :: rest).map declaration) ++ ")",
      "        : "
        ++ ", ".intercalate ((first :: rest).map fun member =>
            member.1 ++ "(std::move(" ++ member.1 ++ "))")
        ++ " \x7b\x7d",
      ""]
      ++ (first :: rest).map fun member => "    " ++ declaration member ++ ";"

/-- The class of a node, from its name and its members. -/
def classOf (name : String) (members : List (String × String)) : List String :=
  ["class " ++ name ++ " \x7b", "public:"] ++ bodyOf name members ++ ["\x7d;", ""]

end Header

open Header

variable {settings : Settings} {a b : Schema}

/-! ## Content that decides the text -/

theorem isEmpty_eq_isEmpty_names (schema : Schema) : schema.isEmpty = schema.names.isEmpty := by
  rw [Schema.isEmpty, Schema.names, List.isEmpty_map]

/-- Outside the classes nothing but the names of the nodes is written. -/
theorem declarations_congr (settings : Settings) (h : a.names = b.names) :
    forwardDeclarations a = forwardDeclarations b ∧
      unionAlias settings a = unionAlias settings b ∧
      visitor settings a = visitor settings b ∧ dispatch settings a = dispatch settings b := by
  have hempty : a.isEmpty = b.isEmpty := by
    rw [isEmpty_eq_isEmpty_names, isEmpty_eq_isEmpty_names, h]
  refine ⟨?_, ?_, ?_, ?_⟩
  · rw [forwardDeclarations, forwardDeclarations, h, hempty]
  · rw [unionAlias, unionAlias, alternatives, alternatives, h, hempty]
  · rw [visitor, visitor, h, hempty]
  · rw [dispatch, dispatch, hempty]

/-- The body of a class says nothing of its node but the name and the members. -/
theorem classBody_eq (settings : Settings) (schema : Schema) (node : Node) :
    classBody settings schema node = bodyOf node.name (members settings schema node) := by
  obtain ⟨name, fields, line⟩ := node
  cases fields with
  | nil => rfl
  | cons field rest =>
    simp only [classBody, members, List.map_cons, bodyOf, List.map_map, Function.comp_def,
      List.length_cons, Nat.add_eq_right, List.length_eq_zero_iff, List.map_eq_nil_iff]
    rfl

theorem flatMap_nodeClass (settings : Settings) (schema : Schema) :
    schema.nodes.flatMap (nodeClass settings schema) =
      (content settings schema).flatMap fun entry => classOf entry.1 entry.2 := by
  rw [content, List.flatMap_map]
  refine List.flatMap_congr fun node _ => ?_
  rw [nodeClass, classBody_eq, classOf]

theorem map_fst_content (h : a.Declarable settings) :
    (content settings a).map Prod.fst = a.names := by
  rw [h.names_eq, content, List.map_map]
  rfl

/-- Schemas with the same content have the same lines. -/
theorem lines_congr (ha : a.Declarable settings) (hb : b.Declarable settings)
    (h : content settings a = content settings b) : lines settings a = lines settings b := by
  have hnames : a.names = b.names := by
    rw [← map_fst_content ha, ← map_fst_content hb, h]
  obtain ⟨hforward, hunion, hvisitor, hdispatch⟩ := declarations_congr settings hnames
  rw [lines, lines, flatMap_nodeClass, flatMap_nodeClass, h, hforward, hunion, hvisitor, hdispatch]

/-! ## The text that tells the content -/

/-- Members whose type and name can be written. -/
def Written (member : String × String) : Prop :=
  isIdentifier member.1 = true ∧ isTypeExpr member.2 = true

/-- The type of a declaration ends at its space. -/
theorem declaration_inj {p q : String × String} (hp : Written p)
    (h : declaration p = declaration q) : p = q := by
  have hchars := congrArg String.toList h
  simp only [declaration, String.toList_append] at hchars
  have hname : ' ' ∉ p.1.toList :=
    not_mem_of_isTypeExpr (isTypeExpr_of_isIdentifier hp.1) (by decide)
  have htype : ' ' ∉ p.2.toList := not_mem_of_isTypeExpr hp.2 (by decide)
  have hspace : " ".toList = [' '] := rfl
  rw [hspace, List.append_assoc, List.append_assoc, List.singleton_append, List.singleton_append,
    List.append_cons_inj_of_notMem htype hname] at hchars
  exact Prod.ext (String.toList_inj.mp hchars.2.2) (String.toList_inj.mp hchars.1)

theorem map_declaration_inj {ms ns : List (String × String)} (hms : ∀ m ∈ ms, Written m)
    (h : ms.map (fun m => "    " ++ declaration m ++ ";") =
      ns.map fun m => "    " ++ declaration m ++ ";") : ms = ns := by
  induction ms generalizing ns with
  | nil => exact (List.map_eq_nil_iff.mp h.symm).symm
  | cons m ms ih =>
    obtain ⟨n, ns, rfl, hn, hns⟩ := List.map_eq_cons_iff.mp h.symm
    obtain ⟨hm, hms⟩ := List.forall_mem_cons.mp hms
    rw [String.append_left_inj, String.append_right_inj] at hn
    rw [declaration_inj hm hn.symm, ih hms hns.symm]

/-- The body of a class tells its members. -/
theorem bodyOf_inj {name : String} {ms ns : List (String × String)} (hms : ∀ m ∈ ms, Written m)
    (h : bodyOf name ms = bodyOf name ns) : ms = ns := by
  rcases ms with _ | ⟨m, ms⟩ <;> rcases ns with _ | ⟨n, ns⟩
  · rfl
  · simp [bodyOf] at h
  · simp [bodyOf] at h
  · exact map_declaration_inj hms (congrArg (List.drop 3) h)

/-- No line of a class starts like the one that closes it. -/
theorem head?_ne_of_mem_bodyOf {name line : String} {members : List (String × String)}
    (hline : line ∈ bodyOf name members) : line.toList.head? ≠ some '\x7d' := by
  rcases members with _ | ⟨first, rest⟩
  · rw [bodyOf, List.mem_singleton] at hline
    simp [hline]
  · rw [bodyOf, List.mem_append, List.mem_map] at hline
    rcases hline with hline | ⟨member, -, rfl⟩
    · simp only [List.mem_cons, List.not_mem_nil, or_false] at hline
      rcases hline with rfl | rfl | rfl <;> simp
    · simp

theorem closing_not_mem (entry : String × List (String × String)) :
    "\x7d;" ∉ ["class " ++ entry.1 ++ " \x7b", "public:"] ++ bodyOf entry.1 entry.2 := by
  intro h
  suffices "\x7d;".toList.head? ≠ some '\x7d' from this (by decide)
  rw [List.mem_append] at h
  rcases h with h | h
  · simp only [List.mem_cons, List.not_mem_nil, or_false] at h
    rcases h with h | h
    · simp [h]
    · exact absurd h (by decide)
  · exact head?_ne_of_mem_bodyOf h

/-- A class up to the line that closes it tells its name and its members. -/
theorem opening_inj {m n : String × List (String × String)} (hm : ∀ member ∈ m.2, Written member)
    (h : ["class " ++ m.1 ++ " \x7b", "public:"] ++ bodyOf m.1 m.2 =
      ["class " ++ n.1 ++ " \x7b", "public:"] ++ bodyOf n.1 n.2) : m = n := by
  obtain ⟨hhead, hbody⟩ := List.append_inj h rfl
  have hname : m.1 = n.1 := by
    have := (List.cons.inj hhead).1
    rwa [String.append_left_inj, String.append_right_inj] at this
  rw [← hname] at hbody
  exact Prod.ext hname (bodyOf_inj hm hbody)

/-- Classes tell their names and their members. -/
theorem flatMap_classOf_inj {ms ns : List (String × List (String × String))}
    (hms : ∀ entry ∈ ms, ∀ member ∈ entry.2, Written member)
    (h : (ms.flatMap fun entry => classOf entry.1 entry.2) =
      ns.flatMap fun entry => classOf entry.1 entry.2) : ms = ns := by
  induction ms generalizing ns with
  | nil =>
    rcases ns with _ | ⟨n, ns⟩
    · rfl
    · simp [classOf] at h
  | cons m ms ih =>
    rcases ns with _ | ⟨n, ns⟩
    · simp [classOf] at h
    · obtain ⟨hm, hms⟩ := List.forall_mem_cons.mp hms
      rw [List.flatMap_cons, List.flatMap_cons, classOf, classOf,
        List.append_assoc _ _ (ms.flatMap _), List.append_assoc _ _ (ns.flatMap _)] at h
      obtain ⟨hclass, hrest⟩ := Text.append_cons_inj (closing_not_mem m) (closing_not_mem n) h
      rw [opening_inj hm hclass, ih hms (List.cons.inj hrest).2]

/-- The forward declarations end at the first line that does not start like them. -/
theorem takeWhile_forwardDeclarations (settings : Settings) (schema : Schema)
    (rest : List String) :
    (forwardDeclarations schema ++ (unionAlias settings schema ++ rest)).takeWhile
        (fun line => line.toList.head? = some 'c') =
      schema.names.map fun name => "class " ++ name ++ ";" := by
  rw [forwardDeclarations, List.append_assoc, List.takeWhile_append_of_pos]
  · split_ifs <;> simp [unionAlias]
  · intro line hline
    obtain ⟨name, -, rfl⟩ := List.mem_map.mp hline
    simp

/-- Headers with the same lines are about nodes of the same names. -/
theorem names_eq_of_lines_eq (h : lines settings a = lines settings b) : a.names = b.names := by
  simp only [lines, List.append_assoc, List.append_cancel_left_eq] at h
  have hforward :=
    congrArg (List.takeWhile fun line : String => line.toList.head? = some 'c') h
  rw [takeWhile_forwardDeclarations, takeWhile_forwardDeclarations] at hforward
  refine List.map_injective_iff.mpr (fun name other hline => ?_) hforward
  rwa [String.append_left_inj, String.append_right_inj] at hline

theorem written_of_mem_content (h : a.Declarable settings) :
    ∀ entry ∈ content settings a, ∀ member ∈ entry.2, Written member := by
  simp only [content, members, List.forall_mem_map]
  intro node hnode field hfield
  exact ⟨h.isIdentifier_field node hnode field hfield,
    isTypeExpr_memberType (h.isTypeExpr_type node hnode field hfield)⟩

/-- Headers with the same lines have the same content. -/
theorem content_eq_of_lines_eq (ha : a.Declarable settings)
    (h : lines settings a = lines settings b) : content settings a = content settings b := by
  obtain ⟨hforward, hunion, hvisitor, hdispatch⟩ :=
    declarations_congr settings (names_eq_of_lines_eq h)
  rw [lines, lines, hforward, hunion, hvisitor, hdispatch, List.append_cancel_right_eq,
    List.append_cancel_right_eq, List.append_cancel_left_eq, flatMap_nodeClass,
    flatMap_nodeClass] at h
  exact flatMap_classOf_inj (written_of_mem_content ha) h

/-- Usable settings tell schemas with different contents apart. -/
theorem header_eq_iff_content_eq (hsettings : settings.Usable) (ha : a.Declarable settings)
    (hb : b.Declarable settings) :
    a.header settings = b.header settings ↔ content settings a = content settings b := by
  refine ⟨fun h => content_eq_of_lines_eq ha (lines_eq_of_header_eq hsettings ha hb h),
    fun h => ?_⟩
  rw [← String.toList_inj, toList_header, toList_header, lines_congr ha hb h]

/-- A member asks of the nodes only whether there is one of a name. -/
theorem member_congr (h : ∀ name, name ∈ a.names ↔ name ∈ b.names) :
    member settings a = member settings b := by
  funext field
  have hcontains : a.contains field.type = b.contains field.type := by
    rw [Bool.eq_iff_iff, Schema.contains_iff, Schema.contains_iff, h]
  rw [member, member, memberType, memberType, hcontains]

/-- The lines on which nodes are defined are no part of the content. -/
theorem content_congr (ha : a.Declarable settings) (hb : b.Declarable settings)
    (h : a.nodes.map (fun node => (node.name, node.fields)) =
      b.nodes.map fun node => (node.name, node.fields)) :
    content settings a = content settings b := by
  have hnames : a.names = b.names := by
    have := congrArg (List.map Prod.fst) h
    rw [List.map_map, List.map_map] at this
    rwa [ha.names_eq, hb.names_eq]
  have hmember : member settings a = member settings b := member_congr fun _ => by rw [hnames]
  have := congrArg (List.map fun entry => (entry.1, entry.2.map (member settings b))) h
  simpa only [List.map_map, Function.comp_def, content, members, hmember] using this

/-- Schemas that were read with the same settings have the same header exactly if it has
the same content for both. The lines on which the nodes are defined make no difference. -/
theorem header_eq_header_iff {first second : String} (hcheck : settings.check = .ok ())
    (ha : Schema.read settings first = .ok a) (hb : Schema.read settings second = .ok b) :
    (a.header settings = b.header settings ↔ content settings a = content settings b) ∧
      (a.nodes.map (fun node => (node.name, node.fields)) =
          b.nodes.map (fun node => (node.name, node.fields)) →
        a.header settings = b.header settings) := by
  have hsettings := Settings.check_eq_ok_iff.mp hcheck
  have hiff := header_eq_iff_content_eq hsettings (declarable_of_read hcheck ha)
    (declarable_of_read hcheck hb)
  refine ⟨hiff, fun h => hiff.mpr ?_⟩
  exact content_congr (declarable_of_read hcheck ha) (declarable_of_read hcheck hb) h

/-- Different texts with one header : the nodes stand on other lines, and the pointer that
owns a node was written out. -/
theorem header_of_written_pointer :
    Settings.standard.check = .ok () ∧
      ∃ first second : Schema, first ≠ second ∧
        Schema.read .standard "group | empty inner\nempty" = .ok first ∧
        Schema.read .standard "\ngroup | std::unique_ptr<empty> inner\n\nempty" = .ok second ∧
        first.header .standard = second.header .standard := by
  have hfirst : Schema.read .standard "group | empty inner\nempty" =
      .ok (.ofNodes [⟨"group", [⟨"empty", "inner"⟩], 1⟩, ⟨"empty", [], 2⟩]) := by decide
  have hsecond : Schema.read .standard "\ngroup | std::unique_ptr<empty> inner\n\nempty" =
      .ok (.ofNodes [⟨"group", [⟨"std::unique_ptr<empty>", "inner"⟩], 2⟩, ⟨"empty", [], 4⟩]) := by
    decide
  exact ⟨by decide, _, _, by decide, hfirst, hsecond,
    (header_eq_header_iff (by decide) hfirst hsecond).1.mpr (by decide)⟩

end NodeSchema
