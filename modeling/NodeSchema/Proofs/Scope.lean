import NodeSchema.Header
import NodeSchema.Proofs.Reading

/-!
# Names of a header that stay apart

The names that a header declares side by side, for usable settings and a schema that was
read with them. In its namespace these are the nodes, the union, the visitor and the
function `dispatch`, together with the template parameter (`scopeNames`). In a class they
are the members, which also serve as the constructor's parameters, and there they must
not hide a type that the class mentions (`ClassScope`).

The type that a class mentions is the emitted one (`Header.memberType`) : a type behind an
owning pointer brings `std` and `unique_ptr` into the class. The first is a reserved word.
The second is not, and a member may have that name (`header_scope`).
-/

namespace NodeSchema

/-- The names that a header declares in its namespace, and the template parameter. -/
def scopeNames (settings : Settings) (schema : Schema) : List String :=
  schema.names ++ [settings.unionName, settings.visitorName, dispatchName, resultParam]

/-- The members of a node's class stay apart : from each other, from the reserved words,
from the class, and from the words of the types in the class. The pointer of an owned type
is left out, unless it is also a word of the type as it was declared. -/
structure ClassScope (settings : Settings) (schema : Schema) (node : Node) : Prop where
  nodup : (node.fields.map Field.name).Nodup
  notReserved : ∀ field ∈ node.fields, isReserved field.name = false
  ne_class : ∀ field ∈ node.fields, field.name ≠ node.name
  owner_of_run : ∀ field ∈ node.fields, ∀ other ∈ node.fields,
    IsNameRun field.name (Header.memberType settings schema other) →
      field.name = "unique_ptr" ∧ ¬IsNameRun field.name other.type ∧
        Header.memberType settings schema other = "std::unique_ptr<" ++ other.type ++ ">"

theorem Schema.Declarable.names_eq {settings : Settings} {schema : Schema}
    (h : schema.Declarable settings) : schema.names = schema.nodes.map Node.name := by
  conv_lhs => rw [h.keyed, names_ofNodes]

/-- A member's type is emitted as it was declared, or behind an owning pointer. -/
theorem memberType_eq (settings : Settings) (schema : Schema) (field : Field) :
    Header.memberType settings schema field = field.type ∨
      Header.memberType settings schema field = "std::unique_ptr<" ++ field.type ++ ">" := by
  unfold Header.memberType
  split_ifs
  · exact .inr rfl
  · exact .inl rfl

theorem isTypeExpr_memberType {settings : Settings} {schema : Schema} {field : Field}
    (h : isTypeExpr field.type = true) :
    isTypeExpr (Header.memberType settings schema field) = true := by
  rcases memberType_eq settings schema field with heq | heq
  · rwa [heq]
  · rw [heq]
    exact isTypeExpr_owned h

/-- The names that every header declares are apart from each other. -/
theorem nodup_generatedNames {settings : Settings} (h : settings.Usable) :
    [settings.unionName, settings.visitorName, dispatchName, resultParam].Nodup := by
  obtain ⟨-, -, hunionResult, hunionDispatch⟩ := Settings.isDeclarable_iff.mp h.unionName
  obtain ⟨-, -, hvisitorResult, hvisitorDispatch⟩ := Settings.isDeclarable_iff.mp h.visitorName
  have hfixed : dispatchName ≠ resultParam := by decide
  simp [h.union_ne_visitor, hunionResult, hunionDispatch, hvisitorResult, hvisitorDispatch, hfixed]

theorem nodup_scopeNames {settings : Settings} {schema : Schema} (hsettings : settings.Usable)
    (hschema : schema.Declarable settings) : (scopeNames settings schema).Nodup := by
  rw [scopeNames, List.nodup_append, hschema.names_eq]
  refine ⟨hschema.nodup, nodup_generatedNames hsettings, ?_⟩
  rintro name hname other hother rfl
  obtain ⟨node, hnode, rfl⟩ := List.mem_map.mp hname
  refine (hschema.node node hnode).not_generated ?_
  simpa [Settings.generatedNames, or_comm] using hother

/-- Every name of the namespace can be written and is no reserved word. -/
theorem isIdentifier_of_mem_scopeNames {settings : Settings} {schema : Schema}
    (hsettings : settings.Usable) (hschema : schema.Declarable settings) {name : String}
    (hname : name ∈ scopeNames settings schema) :
    isIdentifier name = true ∧ isReserved name = false := by
  rw [scopeNames, List.mem_append, hschema.names_eq] at hname
  rcases hname with hname | hname
  · obtain ⟨node, hnode, rfl⟩ := List.mem_map.mp hname
    exact ⟨hschema.isIdentifier_name node hnode, (hschema.node node hnode).notReserved⟩
  · obtain ⟨hunion, hunionWord, -, -⟩ := Settings.isDeclarable_iff.mp hsettings.unionName
    obtain ⟨hvisitor, hvisitorWord, -, -⟩ := Settings.isDeclarable_iff.mp hsettings.visitorName
    simp only [List.mem_cons, List.not_mem_nil, or_false] at hname
    rcases hname with rfl | rfl | rfl | rfl
    · exact ⟨hunion, hunionWord⟩
    · exact ⟨hvisitor, hvisitorWord⟩
    · decide
    · decide

theorem classScope_of_declarable {settings : Settings} {schema : Schema}
    (hschema : schema.Declarable settings) {node : Node} (hnode : node ∈ schema.nodes) :
    ClassScope settings schema node := by
  obtain ⟨-, -, hnodup, hreserved, hne, hrun⟩ := hschema.node node hnode
  refine ⟨hnodup, hreserved, hne, fun field hfield other hother h => ?_⟩
  have hdeclared := hrun field hfield other hother
  rcases memberType_eq settings schema other with heq | heq
  · rw [heq] at h
    exact absurd h hdeclared
  · rw [heq, isNameRun_owned_iff] at h
    rcases h with hstd | hptr | h
    · have := hreserved field hfield
      rw [hstd] at this
      cases this
    · exact ⟨hptr, hdeclared, heq⟩
    · exact absurd h hdeclared

/-- The names of a header stay apart, in its namespace and in each of its classes. -/
theorem header_scope {settings : Settings} {source : String} {schema : Schema}
    (hcheck : settings.check = .ok ()) (hread : Schema.read settings source = .ok schema) :
    (scopeNames settings schema).Nodup ∧
      (∀ name ∈ scopeNames settings schema, isIdentifier name = true ∧ isReserved name = false) ∧
      ∀ node ∈ schema.nodes, ClassScope settings schema node := by
  have hsettings := Settings.check_eq_ok_iff.mp hcheck
  have hschema := declarable_of_read hcheck hread
  exact ⟨nodup_scopeNames hsettings hschema,
    fun _ => isIdentifier_of_mem_scopeNames hsettings hschema,
    fun _ => classScope_of_declarable hschema⟩

/-- A member may be called like the pointer that owns its neighbour. -/
theorem header_scope_unique_ptr :
    Settings.standard.check = .ok () ∧
      ∃ schema, Schema.read .standard "group | expression inner, int unique_ptr\nempty" =
          .ok schema ∧
        (scopeNames .standard schema).Nodup ∧
        (∀ name ∈ scopeNames .standard schema, isIdentifier name = true ∧ isReserved name = false) ∧
        ∀ node ∈ schema.nodes, ClassScope .standard schema node :=
  have hread : Schema.read .standard "group | expression inner, int unique_ptr\nempty" =
      .ok (.ofNodes [⟨"group", [⟨"expression", "inner"⟩, ⟨"int", "unique_ptr"⟩], 1⟩,
        ⟨"empty", [], 2⟩]) := by decide
  ⟨by decide, _, hread, header_scope (by decide) hread⟩

end NodeSchema
