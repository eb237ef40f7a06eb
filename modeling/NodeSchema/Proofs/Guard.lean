import NodeSchema.Proofs.Tokens

/-!
# The guard macro and the code of a header

The guard macro of a header is defined as nothing, so it deletes every identifier of its
name from the code behind its definition. `forall_codeTokens_iff` says which identifiers
stand in the code : the words that a header has whatever its names are (`fixedWords`), the
nested namespaces, and the names and types of settings and schema (`IsChosen`).

Nothing keeps the guard apart from them. A guard that is given may be any of them
(`guard_erases_keyword`), and one that is derived from the namespace may be the name of a
node (`guard_erases_node`). `guard_erases_nothing_iff` says when no identifier is deleted.
A derived guard is at least none of the fixed words and none of the namespaces, since it
ends in `_HPP` and is longer than each of these.
-/

namespace NodeSchema

open Header

/-! ## The identifiers of a header -/

/-- Whether a member is held by an owning pointer. -/
def isOwned (settings : Settings) (schema : Schema) (field : Field) : Bool :=
  field.type = settings.unionName || schema.contains field.type

/-- The words of every header. -/
def commonWords : List String :=
  ["using", "std", "variant", "template", "typename", "R", "class", "public", "virtual", "default"]

/-- The further words of a header with nodes. -/
def visitWords : List String :=
  ["visit", "const", "return", "dispatch", "v", "value", "auto", "alternative"]

/-- The words that a header has whatever its names are. Some are there only if there is a
namespace, a node or none, a constructor with one parameter or with some, or an owning
pointer. -/
def fixedWords (settings : Settings) (schema : Schema) : List String :=
  commonWords
    ++ (if settings.scopeSegments = [] then [] else ["namespace"])
    ++ (if schema.isEmpty then ["monostate"] else visitWords)
    ++ (if schema.nodes.any fun node => node.fields.length = 1 then ["explicit"] else [])
    ++ (if schema.nodes.any fun node => node.fields ≠ [] then ["move"] else [])
    ++ if schema.nodes.any fun node => node.fields.any (isOwned settings schema) then
      ["unique_ptr"]
    else []

/-- The token is a name that settings or schema choose, or a run of a type of the schema. -/
inductive IsChosen (settings : Settings) (schema : Schema) : String → Prop
  | union : IsChosen settings schema settings.unionName
  | visitor : IsChosen settings schema settings.visitorName
  | node {name : String} (h : name ∈ schema.names) : IsChosen settings schema name
  | field {node : Node} {field : Field} (hnode : node ∈ schema.nodes)
      (hfield : field ∈ node.fields) : IsChosen settings schema field.name
  | type {node : Node} {field : Field} {run : String} (hnode : node ∈ schema.nodes)
      (hfield : field ∈ node.fields) (hrun : IsNameRun run field.type) :
      IsChosen settings schema run

section Tokens

variable {settings : Settings} {schema : Schema} {P : String → Prop}

theorem forall_memberType_iff {field : Field} :
    (∀ token ∈ nameRuns (memberType settings schema field), P token) ↔
      (isOwned settings schema field = true → P "std" ∧ P "unique_ptr") ∧
        ∀ token, IsNameRun token field.type → P token := by
  have hruns : ∀ token, token ∈ nameRuns (memberType settings schema field) ↔
      (isOwned settings schema field = true ∧ (token = "std" ∨ token = "unique_ptr")) ∨
        IsNameRun token field.type := by
    intro token
    rw [mem_nameRuns_iff, memberType]
    change IsNameRun token (if isOwned settings schema field = true then _ else _) ↔ _
    split_ifs with howned
    · rw [isNameRun_owned_iff]
      simp [howned, or_assoc]
    · simp [howned]
  simp [hruns, or_imp, forall_and]

theorem forall_mem_ite {c : Prop} [Decidable c] {word : String} :
    (∀ token ∈ (if c then [word] else []), P token) ↔ (c → P word) := by
  split_ifs with h <;> simp [h]

theorem forall_fixedWords_iff :
    (∀ token ∈ fixedWords settings schema, P token) ↔
      (∀ token ∈ commonWords, P token) ∧
      (settings.scopeSegments ≠ [] → P "namespace") ∧
      (schema.isEmpty = true → P "monostate") ∧
      (schema.isEmpty = false → ∀ token ∈ visitWords, P token) ∧
      ∀ node ∈ schema.nodes, (node.fields.length = 1 → P "explicit") ∧
        ∀ field ∈ node.fields,
          P "move" ∧ (isOwned settings schema field = true → P "unique_ptr") := by
  have hscope : (∀ token ∈ (if settings.scopeSegments = [] then [] else ["namespace"]), P token) ↔
      (settings.scopeSegments ≠ [] → P "namespace") := by
    split_ifs <;> simp [*]
  have hvisit : (∀ token ∈ (if schema.isEmpty then ["monostate"] else visitWords), P token) ↔
      (schema.isEmpty = true → P "monostate") ∧
        (schema.isEmpty = false → ∀ token ∈ visitWords, P token) := by
    cases schema.isEmpty <;> simp
  have hmove : (∀ node ∈ schema.nodes, node.fields ≠ [] → P "move") ↔
      ∀ node ∈ schema.nodes, ∀ field ∈ node.fields, P "move" := by
    refine forall₂_congr fun node _ => ⟨fun h field hfield => h (List.ne_nil_of_mem hfield), ?_⟩
    intro h hne
    obtain ⟨field, hfield⟩ := List.exists_mem_of_ne_nil _ hne
    exact h field hfield
  simp only [fixedWords, List.forall_mem_append, hscope, hvisit, forall_mem_ite, List.any_eq_true,
    decide_eq_true_eq, forall_exists_index, and_imp, hmove, forall_and, and_assoc]

/-- The identifiers in the class of a node. -/
theorem forall_nodeClass_iff {node : Node} (hname : isIdentifier node.name = true)
    (hfield : ∀ field ∈ node.fields, isIdentifier field.name = true) :
    (∀ token ∈ (nodeClass settings schema node).flatMap nameRuns, P token) ↔
      P "class" ∧ P "public" ∧ P node.name ∧ (node.fields = [] → P "default") ∧
        (node.fields.length = 1 → P "explicit") ∧
        ∀ field ∈ node.fields, P "std" ∧ P "move" ∧ P field.name ∧
          (isOwned settings schema field = true → P "unique_ptr") ∧
            ∀ token, IsNameRun token field.type → P token := by
  have hparameters : (∀ token ∈ node.fields.flatMap (fun field =>
      nameRuns (parameter settings schema field)), P token) ↔ ∀ field ∈ node.fields,
        (isOwned settings schema field = true → P "std" ∧ P "unique_ptr") ∧
          (∀ token, IsNameRun token field.type → P token) ∧ P field.name := by
    rw [List.forall_mem_flatMap]
    refine forall₂_congr fun field hmem => ?_
    rw [nameRuns_parameter (hfield field hmem), List.forall_mem_append, forall_memberType_iff]
    simp [and_assoc]
  rw [tokens_nodeClass hname, tokens_classBody hname hfield]
  by_cases hnone : node.fields = []
  · simp [hnone]
    tauto
  · simp only [if_neg hnone, List.forall_mem_append, hparameters]
    split_ifs with hone
    · simp [hone, hnone]
      grind
    · simp [hone, hnone]
      grind

theorem forall_isChosen_iff : (∀ token, IsChosen settings schema token → P token) ↔
    P settings.unionName ∧ P settings.visitorName ∧ (∀ name ∈ schema.names, P name) ∧
      ∀ node ∈ schema.nodes, ∀ field ∈ node.fields,
        P field.name ∧ ∀ run, IsNameRun run field.type → P run := by
  refine ⟨fun h => ⟨h _ .union, h _ .visitor, fun name hname => h name (.node hname),
    fun node hnode field hfield => ⟨h _ (.field hnode hfield),
      fun run hrun => h run (.type hnode hfield hrun)⟩⟩, ?_⟩
  rintro ⟨hunion, hvisitor, hname, hfield⟩ token
    (_ | _ | hmem | ⟨hnode, hmem⟩ | ⟨hnode, hmem, hrun⟩)
  · exact hunion
  · exact hvisitor
  · exact hname token hmem
  · exact (hfield _ hnode _ hmem).1
  · exact (hfield _ hnode _ hmem).2 token hrun

/-- The words written for each name : the name, and the same words around it. -/
theorem forall_flatMap_names_iff {words : String → List String} {fixed : List String}
    (hwords : ∀ name, (∀ token ∈ words name, P token) ↔ (∀ token ∈ fixed, P token) ∧ P name) :
    (∀ token ∈ schema.names.flatMap words, P token) ↔
      (schema.isEmpty = false → ∀ token ∈ fixed, P token) ∧ ∀ name ∈ schema.names, P name := by
  have hempty : schema.isEmpty = false ↔ ∃ name, name ∈ schema.names := by
    rw [← List.length_pos_iff_exists_mem, List.length_pos_iff, ← Bool.not_eq_true]
    simp [Schema.isEmpty, Schema.names]
  simp only [List.forall_mem_flatMap, hwords, hempty, forall_exists_index, forall_and]

theorem forall_forwardDeclarations_iff (h : schema.Declarable settings) :
    (∀ token ∈ (forwardDeclarations schema).flatMap nameRuns, P token) ↔
      (schema.isEmpty = false → P "class") ∧ ∀ name ∈ schema.names, P name := by
  have hforward : (∀ token ∈ schema.names.flatMap (fun name => ["class", name]), P token) ↔
      (schema.isEmpty = false → ∀ token ∈ ["class"], P token) ∧ ∀ name ∈ schema.names, P name :=
    forall_flatMap_names_iff fun name => by simp
  rw [tokens_forwardDeclarations h, hforward, List.forall_mem_singleton]

theorem forall_visitor_iff (hsettings : settings.Usable) (h : schema.Declarable settings) :
    (∀ token ∈ (visitor settings schema).flatMap nameRuns, P token) ↔
      (∀ token ∈ ["template", "typename", "R", "class", "public", "virtual", "default"], P token) ∧
        P settings.visitorName ∧
        (schema.isEmpty = false → ∀ token ∈ ["visit", "const", "return"], P token) ∧
        ∀ name ∈ schema.names, P name := by
  have hvisit : (∀ token ∈ schema.names.flatMap
      (fun name => ["virtual", "R", "visit", "const", name, "return", "R"]), P token) ↔
        (schema.isEmpty = false → ∀ token ∈ ["virtual", "R", "visit", "const", "return"], P token) ∧
          ∀ name ∈ schema.names, P name :=
    forall_flatMap_names_iff fun name => by
      simp only [List.forall_mem_cons]
      tauto
  rw [tokens_visitor hsettings h, List.forall_mem_append, hvisit]
  simp only [List.forall_mem_cons]
  tauto

theorem forall_classes_iff (h : schema.Declarable settings) :
    (∀ token ∈ (schema.nodes.flatMap (nodeClass settings schema)).flatMap nameRuns, P token) ↔
      ∀ node ∈ schema.nodes,
        P "class" ∧ P "public" ∧ P node.name ∧ (node.fields = [] → P "default") ∧
        (node.fields.length = 1 → P "explicit") ∧
        ∀ field ∈ node.fields, P "std" ∧ P "move" ∧ P field.name ∧
          (isOwned settings schema field = true → P "unique_ptr") ∧
            ∀ token, IsNameRun token field.type → P token := by
  rw [List.flatMap_assoc, List.forall_mem_flatMap]
  exact forall₂_congr fun node hnode =>
    forall_nodeClass_iff (h.isIdentifier_name node hnode) (h.isIdentifier_field node hnode)

theorem forall_opening_iff :
    (∀ token ∈ (if settings.scopeSegments = [] then []
      else "namespace" :: settings.scopeSegments), P token) ↔
        (settings.scopeSegments ≠ [] → P "namespace") ∧
          ∀ token ∈ settings.scopeSegments, P token := by
  split_ifs with hnone <;> simp [hnone]

/-- The identifiers in the code of a header are the fixed words, the nested namespaces, and
the names and types of settings and schema. -/
theorem forall_codeTokens_iff (hsettings : settings.Usable) (h : schema.Declarable settings) :
    (∀ token ∈ codeTokens (schema.header settings), P token) ↔
      (∀ token ∈ fixedWords settings schema, P token) ∧
        (∀ token ∈ settings.scopeSegments, P token) ∧
          ∀ token, IsChosen settings schema token → P token := by
  have hname : ∀ node ∈ schema.nodes, node.name ∈ schema.names := by
    intro node hnode
    exact h.names_eq ▸ List.mem_map_of_mem hnode
  rw [codeTokens_header hsettings h, forall_fixedWords_iff, forall_isChosen_iff]
  simp only [declarations, List.flatMap_append, List.forall_mem_append, forall_opening_iff,
    forall_forwardDeclarations_iff h, tokens_unionAlias hsettings h, forall_visitor_iff hsettings h,
    forall_classes_iff h, tokens_dispatch hsettings]
  cases hempty : schema.isEmpty with
  | true =>
    have hnodes : schema.nodes = [] := by simpa [Schema.isEmpty, Schema.nodes] using hempty
    have hnil : schema.names = [] := by simpa [Schema.isEmpty, Schema.names] using hempty
    simp only [hnodes, hnil, if_true, commonWords, List.forall_mem_cons, List.not_mem_nil]
    refine ⟨fun hall => ?_, fun hall => ?_⟩
    · simp_all
    · simp_all
  | false =>
    simp only [if_neg Bool.false_ne_true, commonWords, visitWords, List.forall_mem_cons]
    refine ⟨fun hall => ?_, fun hall => ?_⟩
    · grind
    · grind

end Tokens

/-! ## A derived guard -/

section Derived

variable {settings : Settings} {schema : Schema}

/-- A derived guard ends in `_HPP`, behind a stem that is no shorter than any segment. -/
theorem guard_of_none (h : settings.guardName = none) :
    ∃ stem, settings.guard = stem ++ "_HPP" ∧
      ∀ segment ∈ settings.scopeSegments, segment.length ≤ stem.length := by
  have hlength (segment : String) : (Settings.upperCase segment).length = segment.length := by
    simp [Settings.upperCase, ← String.length_toList]
  refine ⟨_, by rw [Settings.guard, h], fun segment hsegment => ?_⟩
  have hpiece : Settings.upperCase segment ∈ settings.scopeSegments.map Settings.upperCase :=
    List.mem_map_of_mem hsegment
  have hstem := Text.length_le_intercalate "_" hpiece
  rw [hlength] at hstem
  split_ifs with hempty
  · rw [String.isEmpty_iff.mp hempty] at hstem
    exact hstem.trans (Nat.zero_le _)
  · exact hstem

theorem derived_guard_not_mem_fixedWords (h : settings.guardName = none) :
    settings.guard ∉ fixedWords settings schema := by
  have hlast : ∀ word ∈ fixedWords settings schema, word.toList.getLast? ≠ some 'P' := by
    refine forall_fixedWords_iff.mpr ⟨by decide, fun _ => by decide, fun _ => by decide,
      fun _ => by decide, fun node _ => ⟨fun _ => by decide, fun field _ => ?_⟩⟩
    exact ⟨by decide, fun _ => by decide⟩
  obtain ⟨stem, hguard, -⟩ := guard_of_none h
  intro hmem
  exact hlast _ hmem (by simp [hguard])

theorem derived_guard_not_mem_scopeSegments (h : settings.guardName = none) :
    settings.guard ∉ settings.scopeSegments := by
  obtain ⟨stem, hguard, hlength⟩ := guard_of_none h
  have hsuffix : "_HPP".length = 4 := by decide
  intro hmem
  have := hlength _ hmem
  rw [hguard, String.length_append, hsuffix] at this
  omega

end Derived

/-! ## What the guard deletes -/

section Guard

variable {settings : Settings} {schema : Schema}

/-- The guard deletes no identifier exactly if it is not a name or a type of settings and
schema and, in case it is given, neither a fixed word nor a nested namespace. -/
theorem guard_erases_nothing_iff {source : String} (hcheck : settings.check = .ok ())
    (hread : Schema.read settings source = .ok schema) :
    (∀ token ∈ codeTokens (schema.header settings), settings.guard ≠ token) ↔
      ¬IsChosen settings schema settings.guard ∧
        ∀ name ∈ settings.guardName,
          name ∉ fixedWords settings schema ∧ name ∉ settings.scopeSegments := by
  have hsettings := Settings.check_eq_ok_iff.mp hcheck
  rw [forall_codeTokens_iff hsettings (declarable_of_read hcheck hread)]
  have hne (words : List String) : (∀ token ∈ words, settings.guard ≠ token) ↔
      settings.guard ∉ words := List.forall_mem_ne
  have hchosen : (∀ token, IsChosen settings schema token → settings.guard ≠ token) ↔
      ¬IsChosen settings schema settings.guard :=
    ⟨fun h hguard => h _ hguard rfl, fun h token htoken heq => h (heq ▸ htoken)⟩
  rw [hne, hne, hchosen]
  cases hname : settings.guardName with
  | none =>
    simp [derived_guard_not_mem_fixedWords hname, derived_guard_not_mem_scopeSegments hname]
  | some name =>
    have hguard : settings.guard = name := by rw [Settings.guard, hname]
    simp only [Option.mem_some_iff, forall_eq', hguard]
    tauto

/-- A derived guard may be the name of a node. -/
theorem guard_erases_node :
    Settings.standard.check = .ok () ∧ Settings.standard.guardName = none ∧
      ∃ schema, Schema.read .standard "AST_HPP" = .ok schema ∧
        Settings.standard.guard ∈ codeTokens (schema.header .standard) := by
  have hread : Schema.read .standard "AST_HPP" = .ok (.ofNodes [⟨"AST_HPP", [], 1⟩]) := by decide
  refine ⟨by decide, rfl, _, hread, ?_⟩
  by_contra hmem
  have hkept := (guard_erases_nothing_iff (by decide) hread).mp
    fun token htoken heq => hmem (heq ▸ htoken)
  exact hkept.1 (.node (by decide))

/-- A given guard may be a keyword, and then every class of a header loses it. -/
theorem guard_erases_keyword :
    ¬∀ (settings : Settings) (source : String) (schema : Schema), settings.check = .ok () →
      Schema.read settings source = .ok schema →
        ∀ token ∈ codeTokens (schema.header settings), settings.guard ≠ token := by
  let settings : Settings := { Settings.standard with guardName := some "class" }
  have hcheck : settings.check = .ok () := by decide
  have hread : Schema.read settings "" = .ok .empty := by decide
  intro h
  have hwords := (forall_codeTokens_iff (Settings.check_eq_ok_iff.mp hcheck)
    (declarable_of_read hcheck hread)).mp (h settings "" .empty hcheck hread)
  exact (forall_fixedWords_iff.mp hwords.1).1 "class" (by decide) rfl

end Guard

end NodeSchema
