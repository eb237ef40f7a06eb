import NodeSchema.Proofs.Tokens

/-!
# Names that a header declares inside its declarations

Besides the names of its namespace and of its classes, a header declares the member function
of the visitor and the parameters of `dispatch`. The former is in scope in the whole class,
the latter in the parameters behind it, so a type there is lost if it has the same name
(`Uncaptured`). The signatures are read off the lines (`readSignature?`).

Neither `visit` nor `v` is among the names that the settings and the nodes must keep apart
from (`Settings.generatedNames`). So the header of a node `visit` loses that node in the
visitor (`visitor_captures_node`), and `captureFree_iff` says which headers lose nothing.
-/

namespace NodeSchema

open Header

/-! ## Signatures -/

/-- A parameter that is a reference. -/
structure Parameter where
  /-- The identifiers of its type. -/
  type : List String
  /-- The name that it declares, if it does. -/
  names : List String
deriving DecidableEq

/-- What a function is called and what it takes. -/
structure Signature where
  /-- The name of the function. -/
  name : String
  /-- Its parameters, in order. -/
  parameters : List Parameter
deriving DecidableEq

/-- Reads a parameter : its type, and behind the mark of a reference its name. -/
def readParameter (text : List Char) : Parameter :=
  let cut := Text.cutAt '&' text
  ⟨nameRuns (String.ofList cut.1), nameRuns (String.ofList (cut.2.getD []))⟩

/-- Whether there is nothing but words in a text. -/
def isWordy (text : List Char) : Bool :=
  text.all fun c => isNameChar c || Text.isBlank c

/-- Reads the signature in a line, if there is one : words, the last of which is the name of
the function, and parameters in parentheses. -/
def readSignature? (line : String) : Option Signature :=
  let cut := Text.cutAt '(' line.toList
  match isWordy cut.1, cut.2 with
  | true, some rest =>
    (nameRuns (String.ofList cut.1)).getLast?.map fun name =>
      ⟨name, ((Text.cutAt ')' rest).1.splitOn ',').map readParameter⟩
  | _, _ => none

/-- The signatures in some lines. -/
def signatures (contents : List String) : List Signature :=
  contents.filterMap readSignature?

/-- No type is lost to a name in scope. Each parameter brings its own name into scope for
those behind it. -/
def Uncaptured (scope : List String) : List Parameter → Prop
  | [] => True
  | parameter :: rest =>
    (∀ word ∈ parameter.type, word ∉ scope) ∧ Uncaptured (scope ++ parameter.names) rest

/-- The names inside the visitor and inside the signature of `dispatch` leave the types there
alone. In the visitor all its functions are in scope. -/
structure CaptureFree (settings : Settings) (schema : Schema) : Prop where
  ne_visitor : ∀ signature ∈ signatures (visitor settings schema),
    signature.name ≠ settings.visitorName
  visitor : ∀ signature ∈ signatures (visitor settings schema),
    Uncaptured ((signatures (visitor settings schema)).map Signature.name) signature.parameters
  dispatch : ∀ signature ∈ signatures (dispatch settings schema),
    Uncaptured [] signature.parameters

/-! ## The signatures of a header -/

/-- A line without parentheses has no signature. -/
theorem readSignature?_of_not_mem {line : String} (h : '(' ∉ line.toList) :
    readSignature? line = none := by
  rw [readSignature?, Text.cutAt_of_not_mem h]
  dsimp only
  split <;> simp_all

/-- A line that has something else than words in front of its first parenthesis has no
signature. -/
theorem readSignature?_of_isWordy {line : String} {front rest : List Char}
    (hline : line.toList = front ++ '(' :: rest) (hfront : '(' ∉ front)
    (h : isWordy front = false) : readSignature? line = none := by
  simp only [readSignature?, hline, Text.cutAt_append hfront, h]

theorem readSignature?_of_eq {line name : String} {front inner rest : List Char}
    (hline : line.toList = front ++ '(' :: (inner ++ ')' :: rest)) (hfront : '(' ∉ front)
    (hinner : ')' ∉ inner) (hwordy : isWordy front = true)
    (hname : (nameRuns (String.ofList front)).getLast? = some name) :
    readSignature? line = some ⟨name, (inner.splitOn ',').map readParameter⟩ := by
  simp only [readSignature?, hline, Text.cutAt_append hfront, hwordy, Text.cutAt_append hinner,
    hname, Option.map_some]

theorem readParameter_of_not_mem {type name : List Char} (h : '&' ∉ type) :
    readParameter (type ++ '&' :: name) =
      ⟨nameRuns (String.ofList type), nameRuns (String.ofList name)⟩ := by
  simp only [readParameter, Text.cutAt_append h, Option.getD_some]

/-- The visitor's function for a node. -/
def visitSignature (name : String) : Signature :=
  ⟨"visit", [⟨["const", name], []⟩]⟩

/-- The function that forwards a union value. -/
def dispatchSignature (settings : Settings) : Signature :=
  ⟨dispatchName, [⟨[settings.visitorName, resultParam], ["v"]⟩,
    ⟨["const", settings.unionName], ["value"]⟩]⟩

theorem readSignature?_visitLine {name : String} (h : isIdentifier name = true) :
    readSignature? (visitLine name) = some (visitSignature name) := by
  have hline : (visitLine name).toList = "    virtual R visit".toList ++
      '(' :: (("const ".toList ++ name.toList ++ ['&']) ++
        ')' :: " \x7b return R(); \x7d".toList) := by
    unfold visitLine
    simp [resultParam]
  have hclosing : ')' ∉ "const ".toList ++ name.toList ++ ['&'] := by
    simp [not_mem_of_isIdentifier h (c := ')') (by decide)]
  have hcomma : ',' ∉ "const ".toList ++ name.toList ++ ['&'] := by
    simp [not_mem_of_isIdentifier h (c := ',') (by decide)]
  have hmark : '&' ∉ "const ".toList ++ name.toList := by
    simp [not_mem_of_isIdentifier h (c := '&') (by decide)]
  have hname : (nameRuns (String.ofList "    virtual R visit".toList)).getLast? = some "visit" := by
    decide
  have htype : nameRuns (String.ofList ("const ".toList ++ name.toList)) = ["const", name] := by
    have hconst : nameRuns "const " = ["const"] := by decide
    rw [← String.toList_append, String.ofList_toList, nameRuns_append_of_getLast? _ (by decide),
      hconst, nameRuns_of_isIdentifier h, List.singleton_append]
  have hnone : nameRuns (String.ofList []) = [] := by decide
  rw [readSignature?_of_eq hline (by decide) hclosing (by decide) hname,
    List.splitOn_eq_singleton hcomma, List.map_singleton, readParameter_of_not_mem hmark, htype,
    hnone, visitSignature]

section Settings

variable {settings : Settings} (h : settings.Usable)
include h

theorem readSignature?_dispatch :
    readSignature? (resultParam ++ " " ++ dispatchName ++ "(" ++ settings.visitorName ++ "<"
      ++ resultParam ++ ">& v, const " ++ settings.unionName ++ "& value) \x7b") =
        some (dispatchSignature settings) := by
  have hunion := (Settings.isDeclarable_iff.mp h.unionName).1
  have hvisitor := (Settings.isDeclarable_iff.mp h.visitorName).1
  -- the two parameters, and the comma between them
  let first := settings.visitorName.toList ++ "<R>".toList ++ '&' :: " v".toList
  let second := " const ".toList ++ settings.unionName.toList ++ '&' :: " value".toList
  have hline : (resultParam ++ " " ++ dispatchName ++ "(" ++ settings.visitorName ++ "<"
      ++ resultParam ++ ">& v, const " ++ settings.unionName ++ "& value) \x7b").toList =
        "R dispatch".toList ++ '(' :: ((first ++ ',' :: second) ++ ')' :: " \x7b".toList) := by
    simp [resultParam, dispatchName, first, second]
  have hclosing : ')' ∉ first ++ ',' :: second := by
    simp [first, second, not_mem_of_isIdentifier hvisitor (c := ')') (by decide),
      not_mem_of_isIdentifier hunion (c := ')') (by decide)]
  have hfirst : ',' ∉ first := by
    simp [first, not_mem_of_isIdentifier hvisitor (c := ',') (by decide)]
  have hsecond : ',' ∉ second := by
    simp [second, not_mem_of_isIdentifier hunion (c := ',') (by decide)]
  have hvisitorMark : '&' ∉ settings.visitorName.toList ++ "<R>".toList := by
    simp [not_mem_of_isIdentifier hvisitor (c := '&') (by decide)]
  have hunionMark : '&' ∉ " const ".toList ++ settings.unionName.toList := by
    simp [not_mem_of_isIdentifier hunion (c := '&') (by decide)]
  have hname : (nameRuns (String.ofList "R dispatch".toList)).getLast? = some "dispatch" := by
    decide
  have hvisitorType : nameRuns (String.ofList (settings.visitorName.toList ++ "<R>".toList)) =
      [settings.visitorName, "R"] := by
    have hangle : nameRuns "<R>" = ["R"] := by decide
    rw [← String.toList_append, String.ofList_toList, nameRuns_append_of_head? _ (by decide),
      hangle, nameRuns_of_isIdentifier hvisitor, List.singleton_append]
  have hunionType : nameRuns (String.ofList (" const ".toList ++ settings.unionName.toList)) =
      ["const", settings.unionName] := by
    have hconst : nameRuns " const " = ["const"] := by decide
    rw [← String.toList_append, String.ofList_toList, nameRuns_append_of_getLast? _ (by decide),
      hconst, nameRuns_of_isIdentifier hunion, List.singleton_append]
  have hv : nameRuns (String.ofList " v".toList) = ["v"] := by decide
  have hvalue : nameRuns (String.ofList " value".toList) = ["value"] := by decide
  rw [readSignature?_of_eq hline (by decide) hclosing (by decide) hname,
    List.splitOn_append_cons_self_of_not_mem hfirst, List.splitOn_eq_singleton hsecond,
    List.map_cons, List.map_singleton, readParameter_of_not_mem hvisitorMark,
    readParameter_of_not_mem hunionMark, hvisitorType, hunionType, hv, hvalue]
  rfl

end Settings

section Sections

variable {settings : Settings} {schema : Schema}

theorem signatures_visitor (hsettings : settings.Usable) (h : schema.Declarable settings) :
    signatures (visitor settings schema) = schema.names.map visitSignature := by
  have hvisitor := (Settings.isDeclarable_iff.mp hsettings.visitorName).1
  have hparenthesis := not_mem_of_isIdentifier hvisitor (c := '(') (by decide)
  have htemplate : readSignature? ("template <typename " ++ resultParam ++ ">") = none := by decide
  have hclass : readSignature? ("class " ++ settings.visitorName ++ " \x7b") = none :=
    readSignature?_of_not_mem (by simp [hparenthesis])
  have hpublic : readSignature? "public:" = none := by decide
  have hdestructor : readSignature? ("    virtual ~" ++ settings.visitorName ++ "() = default;") =
      none := by
    have hline : ("    virtual ~" ++ settings.visitorName ++ "() = default;").toList =
        ("    virtual ~".toList ++ settings.visitorName.toList) ++
          '(' :: ") = default;".toList := by
      simp
    have htilde : (isNameChar '~' || Text.isBlank '~') = false := by decide
    exact readSignature?_of_isWordy hline (by simp [hparenthesis]) (by simp [isWordy, htilde])
  have hblank : readSignature? "" = none := by decide
  have hclosing : readSignature? "\x7d;" = none := by decide
  have hvisit : (schema.names.map visitLine).filterMap readSignature? =
      schema.names.map visitSignature := by
    rw [List.filterMap_map, ← List.filterMap_eq_map]
    refine List.filterMap_congr fun name hname => ?_
    rw [h.names_eq] at hname
    obtain ⟨node, hnode, rfl⟩ := List.mem_map.mp hname
    rw [Function.comp_apply, Function.comp_apply,
      readSignature?_visitLine (h.isIdentifier_name node hnode)]
  have hseparator : (if schema.isEmpty then [] else [""]).filterMap readSignature? = [] := by
    split_ifs <;> simp [hblank]
  simp only [signatures, visitor, List.filterMap_append, hvisit, hseparator]
  simp [htemplate, hclass, hpublic, hdestructor, hblank, hclosing]

theorem signatures_dispatch (hsettings : settings.Usable) :
    signatures (dispatch settings schema) =
      if schema.isEmpty then [] else [dispatchSignature settings] := by
  have htemplate : readSignature? ("template <typename " ++ resultParam ++ ">") = none := by decide
  have hreturn : readSignature? ("    return std::visit([&v](const auto& alternative) -> "
      ++ resultParam ++ " \x7b return v.visit(alternative); \x7d, value);") = none := by decide
  have hclosing : readSignature? "\x7d" = none := by decide
  have hblank : readSignature? "" = none := by decide
  unfold dispatch
  split_ifs
  · rfl
  · simp only [signatures, List.filterMap_cons, List.filterMap_nil, htemplate, hreturn, hclosing,
      hblank, readSignature?_dispatch hsettings]

theorem uncaptured_visitSignature_iff {scope : List String} {name : String} :
    Uncaptured scope (visitSignature name).parameters ↔ "const" ∉ scope ∧ name ∉ scope := by
  simp [Uncaptured, visitSignature]

theorem uncaptured_dispatchSignature_iff :
    Uncaptured [] (dispatchSignature settings).parameters ↔ settings.unionName ≠ "v" := by
  simp [Uncaptured, dispatchSignature]

/-- A header loses no type to an inner name exactly if `visit` is neither a node nor the
visitor and the union is not `v`. Without nodes there are no inner names. -/
theorem captureFree_iff (hsettings : settings.Usable) (h : schema.Declarable settings) :
    CaptureFree settings schema ↔ (schema.isEmpty = false →
      "visit" ∉ schema.names ∧ settings.visitorName ≠ "visit" ∧ settings.unionName ≠ "v") := by
  have hvisitor := signatures_visitor hsettings h
  have hdispatch : signatures (dispatch settings schema) = _ := signatures_dispatch hsettings
  cases hempty : schema.isEmpty with
  | true =>
    have hnone : schema.names = [] := by simpa [Schema.isEmpty, Schema.names] using hempty
    refine iff_of_true ⟨?_, ?_, ?_⟩ (fun hfalse => by cases hfalse)
    · simp [hvisitor, hnone]
    · simp [hvisitor, hnone]
    · simp [hdispatch, hempty]
  | false =>
    have hsome : schema.names ≠ [] := by simpa [Schema.isEmpty, Schema.names] using hempty
    obtain ⟨first, hfirst⟩ := List.exists_mem_of_ne_nil _ hsome
    have hscope (word : String) :
        word ∈ (schema.names.map visitSignature).map Signature.name ↔ word = "visit" := by
      simp only [List.map_map, List.mem_map, Function.comp_apply, visitSignature]
      refine ⟨?_, fun heq => ⟨first, hfirst, heq.symm⟩⟩
      rintro ⟨-, -, heq⟩
      exact heq.symm
    have hconst : "const" ≠ "visit" := by decide
    rw [if_neg (by simp [hempty])] at hdispatch
    refine ⟨fun hfree _ => ⟨fun hmem => ?_, fun hclass => ?_, ?_⟩, fun hne => ?_⟩
    · have hscoped := hfree.visitor (visitSignature "visit")
        (hvisitor ▸ List.mem_map_of_mem hmem)
      rw [uncaptured_visitSignature_iff, hvisitor] at hscoped
      exact hscoped.2 ((hscope "visit").mpr rfl)
    · exact hfree.ne_visitor (visitSignature first) (hvisitor ▸ List.mem_map_of_mem hfirst)
        hclass.symm
    · rw [← uncaptured_dispatchSignature_iff]
      exact hfree.dispatch _ (by simp [hdispatch])
    · obtain ⟨hnode, hclass, hunion⟩ := hne rfl
      refine ⟨?_, ?_, ?_⟩
      · rw [hvisitor, List.forall_mem_map]
        exact fun _ _ => hclass.symm
      · rw [hvisitor, List.forall_mem_map]
        intro name hname
        rw [uncaptured_visitSignature_iff, hscope, hscope]
        exact ⟨hconst, fun heq => hnode (heq ▸ hname)⟩
      · rw [hdispatch, List.forall_mem_singleton]
        exact uncaptured_dispatchSignature_iff.mpr hunion

/-- What keeps the types of a header apart from the names inside its declarations. -/
theorem header_captureFree_iff {source : String} (hcheck : settings.check = .ok ())
    (hread : Schema.read settings source = .ok schema) :
    CaptureFree settings schema ↔ (schema.isEmpty = false →
      "visit" ∉ schema.names ∧ settings.visitorName ≠ "visit" ∧ settings.unionName ≠ "v") :=
  captureFree_iff (Settings.check_eq_ok_iff.mp hcheck) (declarable_of_read hcheck hread)

/-- A header with names that are close to the inner ones, and are apart from them. -/
theorem captureFree_visited :
    ∃ settings schema, settings.check = .ok () ∧
      Schema.read settings "visited | value v\ndispatched" = .ok schema ∧
        CaptureFree settings schema :=
  let settings := { Settings.standard with unionName := "value" }
  have hread : Schema.read settings "visited | value v\ndispatched" =
      .ok (.ofNodes [⟨"visited", [⟨"value", "v"⟩], 1⟩, ⟨"dispatched", [], 2⟩]) := by decide
  ⟨settings, _, by decide, hread,
    (header_captureFree_iff (by decide) hread).mpr fun _ => by decide⟩

/-- The visitor's functions capture a node of their name. -/
theorem visitor_captures_node :
    ¬∀ (settings : Settings) (source : String) (schema : Schema), settings.check = .ok () →
      Schema.read settings source = .ok schema → schema.isEmpty = false →
        CaptureFree settings schema := by
  have hcheck : Settings.standard.check = .ok () := by decide
  have hread : Schema.read .standard "visit" = .ok (.ofNodes [⟨"visit", [], 1⟩]) := by decide
  have hiff := captureFree_iff (Settings.check_eq_ok_iff.mp hcheck) (declarable_of_read hcheck hread)
  intro h
  have hfree := h .standard "visit" _ hcheck hread rfl
  exact (hiff.mp hfree rfl).1 (by decide)

end Sections

end NodeSchema
