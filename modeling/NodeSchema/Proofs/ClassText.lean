import NodeSchema.Proofs.Landmarks
import NodeSchema.Proofs.Readback

/-!
# Classes read back from a header

The class of a node goes from the line that begins it, which a header has once, to the first line
behind it that closes a class (`classRows_header`). Its lines are the constructor, the list that
moves the parameters into the members, a blank line and the members (`ClassText`), or the default
constructor alone.

A reader that knows the name of the class finds the parameters between the brackets, with a comma
and a blank between each and the next (`readClass?`). No type and no name that a header can
declare has a comma, a blank or a bracket, so the three lists that were written one after the other
are found as they were written, entry by entry (`class_lists_aligned`).
-/

namespace NodeSchema

namespace Text

/-! ## Entries behind commas and blanks -/

/-- The pieces between commas that are followed by a blank. -/
def cutAtJoints : List Char → List (List Char)
  | [] => [[]]
  | ',' :: ' ' :: rest => [] :: cutAtJoints rest
  | c :: rest => extendFirst c (cutAtJoints rest)

theorem cutAtJoints_cons {c : Char} (hc : c ≠ ',') (rest : List Char) :
    cutAtJoints (c :: rest) = extendFirst c (cutAtJoints rest) := by
  rw [cutAtJoints]
  rintro rest' rfl
  exact absurd rfl hc

theorem cutAtJoints_of_not_mem {piece : List Char} (h : ',' ∉ piece) :
    cutAtJoints piece = [piece] := by
  induction piece with
  | nil => rfl
  | cons c piece ih =>
    obtain ⟨hc, hpiece⟩ := List.ne_and_not_mem_of_not_mem_cons h
    rw [cutAtJoints_cons hc.symm, ih hpiece, extendFirst]

/-- A piece ends at the first comma with a blank. -/
theorem cutAtJoints_append {piece : List Char} (h : ',' ∉ piece) (rest : List Char) :
    cutAtJoints (piece ++ ',' :: ' ' :: rest) = piece :: cutAtJoints rest := by
  induction piece with
  | nil => rw [List.nil_append, cutAtJoints]
  | cons c piece ih =>
    obtain ⟨hc, hpiece⟩ := List.ne_and_not_mem_of_not_mem_cons h
    rw [List.cons_append, cutAtJoints_cons hc.symm, ih hpiece, extendFirst]

/-- Pieces without commas that were joined are found again. -/
theorem cutAtJoints_intercalate {pieces : List String} (hne : pieces ≠ [])
    (h : ∀ piece ∈ pieces, ',' ∉ piece.toList) :
    (cutAtJoints (", ".intercalate pieces).toList).map String.ofList = pieces := by
  rw [String.toList_intercalate]
  induction pieces with
  | nil => exact absurd rfl hne
  | cons piece rest ih =>
    obtain ⟨hpiece, hrest⟩ := List.forall_mem_cons.mp h
    cases rest with
    | nil => simp [cutAtJoints_of_not_mem hpiece]
    | cons next rest =>
      rw [List.map_cons, List.map_cons, List.intercalate_cons_cons, ← List.map_cons,
        show ", ".toList = [',', ' '] from rfl, List.append_assoc, List.cons_append,
        List.singleton_append, cutAtJoints_append hpiece, List.map_cons, String.ofList_toList]
      exact congrArg (piece :: ·) (ih (by simp) hrest)

end Text

open Header Text

/-! ## The reader of classes -/

/-- What stands in a line between its start and its end, if it has both. -/
def inside? (start finish line : String) : Option (List Char) := do
  let rest ← line.toList.dropPrefix? start.toList
  rest.dropSuffix? finish.toList

/-- The entries of a list that stands in a line between its start and its end. -/
def entries? (start finish line : String) : Option (List String) :=
  (inside? start finish line).map fun inner => (cutAtJoints inner).map String.ofList

/-- What the lines of a class say. -/
inductive ClassText where
  /-- The class has the default constructor and nothing else. -/
  | defaulted
  /-- The class has a constructor with parameters and initializers, and lines of members. -/
  | declared (explicitly : Bool) (parameters initializers members : List String)
deriving DecidableEq

/-- Reads the line of a constructor : whether it is explicit, and its parameters. -/
def readConstructor? (name line : String) : Option (Bool × List String) :=
  match entries? ("    explicit " ++ name ++ "(") ")" line with
  | some parameters => some (true, parameters)
  | none => (entries? ("    " ++ name ++ "(") ")" line).map fun parameters => (false, parameters)

/-- Reads the lines of a class. -/
def readRows? (name : String) : List String → Option ClassText
  | [access, constructor] =>
    if access = "public:" ∧ constructor = "    " ++ name ++ "() = default;" then some .defaulted
    else none
  | access :: constructor :: initializers :: blank :: members =>
    if access = "public:" ∧ blank = "" then do
      let (explicitly, parameters) ← readConstructor? name constructor
      let initializers ← entries? "        : " " \x7b\x7d" initializers
      return .declared explicitly parameters initializers members
    else none
  | _ => none

/-- The lines of a class, between the one that begins it and the first one behind it that closes
a class. -/
def classRows (name text : String) : List String :=
  (((rows text).dropWhile (· != "class " ++ name ++ " \x7b")).drop 1).takeWhile (· != "\x7d;")

/-- Reads a class in the text of a header. -/
def readClass? (name text : String) : Option ClassText :=
  readRows? name (classRows name text)

/-! ## Lines of lists -/

theorem inside?_append (start middle finish : String) :
    inside? start finish (start ++ middle ++ finish) = some middle.toList := by
  rw [inside?, String.toList_append, String.toList_append, List.append_assoc,
    List.dropPrefix?_append_of_beq _ BEq.rfl]
  exact List.dropSuffix?_eq_some_iff.mpr ⟨_, rfl, BEq.rfl⟩

theorem inside?_eq_none {start line : String} (h : ¬start.toList <+: line.toList)
    (finish : String) : inside? start finish line = none := by
  have hstart : line.toList.dropPrefix? start.toList = none := by
    rw [Option.eq_none_iff_forall_ne_some]
    intro rest hrest
    obtain ⟨found, hline, hfound⟩ := List.dropPrefix?_eq_some_iff.mp hrest
    exact h ⟨rest, by rw [hline, eq_of_beq hfound]⟩
  rw [inside?, hstart]
  rfl

/-- A list that was written in a line is read entry by entry. -/
theorem entries?_intercalate (start finish : String) {entries : List String} (hne : entries ≠ [])
    (h : ∀ entry ∈ entries, ',' ∉ entry.toList) :
    entries? start finish (start ++ ", ".intercalate entries ++ finish) = some entries := by
  rw [entries?, inside?_append, Option.map_some, cutAtJoints_intercalate hne h]

/-- A constructor that is not explicit is not read as one that is. -/
theorem not_explicit_prefix {name : String} (hname : isIdentifier name = true) (rest : String) :
    ¬("    explicit " ++ name ++ "(").toList <+: ("    " ++ name ++ "(" ++ rest).toList := by
  intro h
  have hstart : "explicit ".toList <+: name.toList ++ '(' :: rest.toList := by
    refine .trans (List.prefix_append _ (name.toList ++ ['('])) ?_
    simpa using h
  have hspace : ' ' ∈ name.toList :=
    (prefix_of_append_cons '(' (by decide) hstart).subset (by decide)
  exact not_mem_of_isIdentifier hname (by decide) hspace

theorem readConstructor?_eq {name : String} (hname : isIdentifier name = true)
    {parameters : List String} (hne : parameters ≠ [])
    (h : ∀ parameter ∈ parameters, ',' ∉ parameter.toList) (explicitly : Bool) :
    readConstructor? name ("    " ++ (if explicitly then "explicit " else "") ++ name ++ "("
      ++ ", ".intercalate parameters ++ ")") = some (explicitly, parameters) := by
  cases explicitly with
  | true =>
    have hread := entries?_intercalate ("    explicit " ++ name ++ "(") ")" hne h
    rw [readConstructor?, if_pos rfl, show "    " ++ "explicit " = "    explicit " from rfl, hread]
  | false =>
    have hread := entries?_intercalate ("    " ++ name ++ "(") ")" hne h
    have hexplicit : entries? ("    explicit " ++ name ++ "(") ")"
        ("    " ++ name ++ "(" ++ ", ".intercalate parameters ++ ")") = none := by
      have hprefix := not_explicit_prefix hname (", ".intercalate parameters ++ ")")
      rw [← String.append_assoc] at hprefix
      rw [entries?, inside?_eq_none hprefix, Option.map_none]
    rw [readConstructor?, if_neg Bool.false_ne_true, String.append_empty, hexplicit, hread]
    rfl

/-! ## The lines of a class in a header -/

section Classes

variable {settings : Settings} {schema : Schema} {node : Node}

/-- The lines of a class are those of the body that was written for its node. -/
theorem classRows_header (hsettings : settings.Usable) (h : schema.Declarable settings)
    (hnode : node ∈ schema.nodes) :
    classRows node.name (schema.header settings) =
      "public:" :: classBody settings schema node := by
  obtain ⟨earlier, later, hnodes⟩ := List.append_of_mem hnode
  obtain ⟨before, after, hrows⟩ : ∃ before after, rows (schema.header settings) =
      before ++ ("class " ++ node.name ++ " \x7b") ::
        ("public:" :: classBody settings schema node ++ "\x7d;" :: after) := by
    rw [rows_header hsettings h, Header.lines, hnodes, List.flatMap_append, List.flatMap_cons,
      nodeClass]
    refine ⟨preamble settings ++ forwardDeclarations schema ++ unionAlias settings schema
      ++ visitor settings schema ++ earlier.flatMap (nodeClass settings schema),
      "" :: (later.flatMap (nodeClass settings schema) ++ dispatch settings schema
        ++ trailer settings ++ [""]), ?_⟩
    simp only [List.append_assoc, List.cons_append, List.nil_append]
  have hname : node.name ∈ schema.names :=
    h.names_eq ▸ List.mem_map_of_mem hnode
  have honce := count_text_rows hsettings h (.opening node.name)
    (opening_mem_landmarks.mpr (.inl hname))
  rw [Landmark.text_opening, hrows, List.count_append, List.count_cons_self] at honce
  have hbefore : "class " ++ node.name ++ " \x7b" ∉ before :=
    List.count_eq_zero.mp (by omega)
  have hbody : ∀ line ∈ "public:" :: classBody settings schema node, (line != "\x7d;") = true := by
    intro line hline
    rw [bne_iff_ne]
    rintro rfl
    rcases List.mem_cons.mp hline with hline | hline
    · exact absurd hline (by decide)
    · rw [classBody_eq] at hline
      exact head?_ne_of_mem_bodyOf hline (by decide)
  have hpass : ∀ line ∈ before, (line != "class " ++ node.name ++ " \x7b") = true := by
    intro line hline
    rw [bne_iff_ne]
    rintro rfl
    exact hbefore hline
  rw [classRows, hrows, List.dropWhile_append_of_pos hpass, List.dropWhile_cons_of_neg (by simp),
    List.drop_one, List.tail_cons, List.takeWhile_append_of_pos hbody,
    List.takeWhile_cons_of_neg (by simp), List.append_nil]

/-- The constructor, the initializers and the members of a class are read as they were written. -/
theorem readRows?_classBody (hname : isIdentifier node.name = true)
    (htype : ∀ field ∈ node.fields, isTypeExpr field.type = true)
    (hfield : ∀ field ∈ node.fields, isIdentifier field.name = true) :
    readRows? node.name ("public:" :: classBody settings schema node) =
      some (if node.fields = [] then .defaulted else
        .declared (decide (node.fields.length = 1)) (node.fields.map (parameter settings schema))
          (node.fields.map initializer)
          (node.fields.map fun field => "    " ++ parameter settings schema field ++ ";")) := by
  obtain ⟨name, fields, line⟩ := node
  dsimp only at hname htype hfield ⊢
  have hparameters : ∀ entry ∈ fields.map (parameter settings schema), ',' ∉ entry.toList := by
    rw [List.forall_mem_map]
    intro field hmem
    have hmember : isTypeExpr (memberType settings schema field) = true :=
      isTypeExpr_memberType (htype field hmem)
    have htype := not_mem_of_isTypeExpr hmember (c := ',') (by decide)
    have hname := not_mem_of_isIdentifier (hfield field hmem) (c := ',') (by decide)
    simp [parameter, htype, hname]
  have hinitializers : ∀ entry ∈ fields.map initializer, ',' ∉ entry.toList := by
    rw [List.forall_mem_map]
    intro field hmem
    have hname := not_mem_of_isIdentifier (hfield field hmem) (c := ',') (by decide)
    simp [initializer, hname]
  cases fields with
  | nil => simp [classBody, readRows?]
  | cons first rest =>
    have hconstructor := readConstructor?_eq hname (by simp) hparameters
      (decide ((first :: rest).length = 1))
    have hlist := entries?_intercalate "        : " " \x7b\x7d" (by simp) hinitializers
    simp only [decide_eq_true_eq] at hconstructor
    rw [if_neg (List.cons_ne_nil _ _), classBody]
    simp only [List.cons_append, List.nil_append, readRows?, and_self, if_true]
    rw [hconstructor, hlist]
    rfl

/-- A member is held by a pointer if its type is the union or the name of any node. -/
theorem memberType_eq_ite (h : schema.Declarable settings) (field : Field) :
    memberType settings schema field =
      if field.type = settings.unionName ∨ field.type ∈ schema.nodes.map Node.name then
        "std::unique_ptr<" ++ field.type ++ ">"
      else field.type := by
  simp only [memberType, Bool.or_eq_true, decide_eq_true_eq, Schema.contains_iff, h.names_eq]

/-- In the class of every node the parameters, the initializers and the members are those of its
fields, in their order, with the same types and the same names. The constructor is explicit if
there is one field, and if there is none then the class has the default constructor only. -/
theorem class_lists_aligned {source : String} (hcheck : settings.check = .ok ())
    (hread : Schema.read settings source = .ok schema) :
    ∃ held : Field → String,
      (∀ field, held field =
        if field.type = settings.unionName ∨ field.type ∈ schema.nodes.map Node.name then
          "std::unique_ptr<" ++ field.type ++ ">"
        else field.type) ∧
      ∀ node ∈ schema.nodes, readClass? node.name (schema.header settings) =
        some (if node.fields = [] then .defaulted else
          .declared (decide (node.fields.length = 1))
            (node.fields.map fun field => held field ++ " " ++ field.name)
            (node.fields.map fun field => field.name ++ "(std::move(" ++ field.name ++ "))")
            (node.fields.map fun field => "    " ++ held field ++ " " ++ field.name ++ ";")) := by
  have h := declarable_of_read hcheck hread
  refine ⟨memberType settings schema, memberType_eq_ite h, fun node hnode => ?_⟩
  rw [readClass?, classRows_header (Settings.check_eq_ok_iff.mp hcheck) h hnode,
    readRows?_classBody (h.isIdentifier_name node hnode) (h.isTypeExpr_type node hnode)
      (h.isIdentifier_field node hnode)]
  have hmember : (fun field => "    " ++ parameter settings schema field ++ ";") =
      fun field => "    " ++ memberType settings schema field ++ " " ++ field.name ++ ";" := by
    funext field
    simp only [parameter, String.append_assoc]
  rw [hmember]
  rfl

/-- A node with members of a later node, of its own kind, of the union and of another type. -/
theorem class_lists_aligned_four :
    Settings.standard.check = .ok () ∧
      ∃ schema, Schema.read .standard
          "list | item head, list tail, expression tag, vec<int> rest\nitem" = .ok schema ∧
        readClass? "list" (schema.header .standard) =
          some (.declared false
            ["std::unique_ptr<item> head", "std::unique_ptr<list> tail",
              "std::unique_ptr<expression> tag", "vec<int> rest"]
            ["head(std::move(head))", "tail(std::move(tail))", "tag(std::move(tag))",
              "rest(std::move(rest))"]
            ["    std::unique_ptr<item> head;", "    std::unique_ptr<list> tail;",
              "    std::unique_ptr<expression> tag;", "    vec<int> rest;"]) ∧
        readClass? "item" (schema.header .standard) = some .defaulted := by
  have hread : Schema.read .standard
      "list | item head, list tail, expression tag, vec<int> rest\nitem" =
        .ok (.ofNodes [⟨"list", [⟨"item", "head"⟩, ⟨"list", "tail"⟩, ⟨"expression", "tag"⟩,
          ⟨"vec<int>", "rest"⟩], 1⟩, ⟨"item", [], 2⟩]) := by
    decide
  obtain ⟨held, hheld, hclass⟩ := class_lists_aligned (by decide) hread
  simp only [Schema.nodes_ofNodes, List.forall_mem_cons] at hheld hclass
  obtain ⟨hlist, hitem, -⟩ := hclass
  have hhead : held ⟨"item", "head"⟩ = "std::unique_ptr<item>" := by rw [hheld]; decide
  have htail : held ⟨"list", "tail"⟩ = "std::unique_ptr<list>" := by rw [hheld]; decide
  have htag : held ⟨"expression", "tag"⟩ = "std::unique_ptr<expression>" := by rw [hheld]; decide
  have hrest : held ⟨"vec<int>", "rest"⟩ = "vec<int>" := by rw [hheld]; decide
  refine ⟨by decide, _, hread, ?_, ?_⟩
  · simp only [hlist, hhead, htail, htag, hrest, List.map_cons, List.map_nil]
    decide
  · rw [hitem, if_pos trivial]

end Classes

end NodeSchema
