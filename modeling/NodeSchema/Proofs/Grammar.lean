import Mathlib.Data.List.Forall2
import NodeSchema.Proofs.Settings
import NodeSchema.Source

/-!
# The grammar of a schema line

A line that defines a node derives from

    ws* NAME ws* [SEP FIELD (',' FIELD)*]        FIELD = ws* TYPE ws+ NAME ws*

where `ws` is white space and `SEP` the separator (`LineText`, `FieldsText`,
`FieldText`). A node that can be declared has a name of its own, and members that are
apart from each other, from the node and from every word of their types
(`NodeDeclarable`).

`readNode_eq_ok_iff` : if the separator can be told from what stands around it, the
lines that are read are those that derive a declarable node, and the node that is read
is the one that is derived.
-/

namespace NodeSchema

open Text

/-! ## Derivations -/

/-- `ws* TYPE ws+ NAME ws*` : the text of a field. -/
inductive FieldText : List Char → Field → Prop
  | intro {before between after : List Char} {field : Field} (hbefore : Blank before)
      (htype : isTypeExpr field.type = true) (hbetween : Blank between) (hne : between ≠ [])
      (hname : isIdentifier field.name = true) (hafter : Blank after) :
      FieldText (before ++ field.type.toList ++ between ++ field.name.toList ++ after) field

/-- `FIELD (',' FIELD)*` : the text of one or more fields. -/
inductive FieldsText : List Char → List Field → Prop
  | single {text : List Char} {field : Field} (h : FieldText text field) : FieldsText text [field]
  | cons {text rest : List Char} {field : Field} {fields : List Field} (h : FieldText text field)
      (hrest : FieldsText rest fields) : FieldsText (text ++ ',' :: rest) (field :: fields)

/-- `ws* NAME ws* [SEP FIELDS]` : the text of a line, with the name and the fields of its
node. -/
inductive LineText (separator : Char) : List Char → String → List Field → Prop
  | bare {before after : List Char} {name : String} (hbefore : Blank before)
      (hname : isIdentifier name = true) (hafter : Blank after) :
      LineText separator (before ++ name.toList ++ after) name []
  | fields {before after rest : List Char} {name : String} {fields : List Field}
      (hbefore : Blank before) (hname : isIdentifier name = true) (hafter : Blank after)
      (hrest : FieldsText rest fields) :
      LineText separator (before ++ name.toList ++ after ++ separator :: rest) name fields

/-! ## Declarable nodes -/

/-- Members that the class `node` can declare side by side : their names differ from each
other, from the reserved words, from the class and from the words of all their types. -/
structure MembersDeclarable (node : String) (fields : List Field) : Prop where
  nodup : (fields.map Field.name).Nodup
  notReserved : ∀ field ∈ fields, isReserved field.name = false
  ne_node : ∀ field ∈ fields, field.name ≠ node
  not_run : ∀ field ∈ fields, ∀ other ∈ fields, ¬IsNameRun field.name other.type

/-- A node that a header can declare : its name is free for it, and its members can be
declared. -/
structure NodeDeclarable (settings : Settings) (name : String) (fields : List Field) : Prop where
  notReserved : isReserved name = false
  not_generated : name ∉ settings.generatedNames
  members : MembersDeclarable name fields

theorem membersDeclarable_nil (node : String) : MembersDeclarable node [] :=
  ⟨by simp, by simp, by simp, by simp⟩

/-! ## Fields -/

theorem FieldText.isTypeExpr_type {text : List Char} {field : Field} (h : FieldText text field) :
    isTypeExpr field.type = true := by
  obtain ⟨-, htype, -, -, -, -⟩ := h
  exact htype

theorem FieldText.isIdentifier_name {text : List Char} {field : Field} (h : FieldText text field) :
    isIdentifier field.name = true := by
  obtain ⟨-, -, -, -, hname, -⟩ := h
  exact hname

/-- The text of a field has no character but white space and those of types. -/
theorem FieldText.not_mem {text : List Char} {field : Field} (h : FieldText text field) {c : Char}
    (hblank : isBlank c = false) (hchar : isTypeChar c = false) : c ∉ text := by
  obtain ⟨hbefore, htype, hbetween, -, hname, hafter⟩ := h
  have hname := not_mem_of_isTypeExpr (isTypeExpr_of_isIdentifier hname) hchar
  simp [not_mem_of_blank hblank hbefore, not_mem_of_blank hblank hbetween,
    not_mem_of_blank hblank hafter, not_mem_of_isTypeExpr htype hchar, hname]

theorem words_of_fieldText {text : List Char} {field : Field} (h : FieldText text field) :
    words text = [field.type.toList, field.name.toList] := by
  obtain ⟨hbefore, htype, hbetween, hne, hname, hafter⟩ := h
  have hnameExpr := isTypeExpr_of_isIdentifier hname
  exact words_eq_pair_iff.mpr ⟨_, _, _, hbefore, hbetween, hne, hafter,
    ⟨solid_of_isTypeExpr htype, toList_ne_nil_of_isTypeExpr htype⟩,
    ⟨solid_of_isTypeExpr hnameExpr, toList_ne_nil_of_isTypeExpr hnameExpr⟩, rfl⟩

theorem fieldText_of_words {text type name : List Char} (h : words text = [type, name])
    (htype : isTypeExpr (String.ofList type) = true)
    (hname : isIdentifier (String.ofList name) = true) :
    FieldText text ⟨String.ofList type, String.ofList name⟩ := by
  obtain ⟨before, between, after, hbefore, hbetween, hne, hafter, -, -, rfl⟩ :=
    words_eq_pair_iff.mp h
  have := @FieldText.intro before between after ⟨String.ofList type, String.ofList name⟩
    hbefore htype hbetween hne hname hafter
  simpa using this

/-- A field is read exactly from the texts that derive it, if its name is free. -/
theorem readField_eq_ok_iff {node : String} {earlier : List Field} {piece : List Char}
    {field : Field} :
    readField node earlier piece = .ok field ↔ FieldText piece field ∧
      isReserved field.name = false ∧ (∀ other ∈ earlier, other.name ≠ field.name) ∧
      field.name ≠ node := by
  refine ⟨fun h => ?_, ?_⟩
  · unfold readField at h
    split at h
    · next type name hwords =>
      dsimp only at h
      split_ifs at h with hname htype hdup hnode
      cases h
      simp only [Bool.or_eq_true, Bool.not_eq_true', not_or, Bool.not_eq_false,
        Bool.not_eq_true] at hname
      refine ⟨fieldText_of_words hwords (by simpa using htype) hname.1, hname.2, ?_, hnode⟩
      simpa using hdup
    · cases h
  · rintro ⟨htext, hreserved, hfresh, hnode⟩
    rw [readField, words_of_fieldText htext]
    simpa [htext.isIdentifier_name, htext.isTypeExpr_type, hreserved, hnode] using hfresh

/-- One more item keeps names apart if no other item has its name. -/
theorem nodup_map_append_singleton {α β : Type*} {name : α → β} {items : List α} {item : α} :
    ((items ++ [item]).map name).Nodup ↔
      (items.map name).Nodup ∧ ∀ other ∈ items, name other ≠ name item := by
  simp [List.nodup_append]

/-- Fields are read from the texts that derive them, if no name is taken twice. -/
theorem collectFields_eq_ok_iff {node : String} {pieces : List (List Char)}
    {earlier fields : List Field} (hearlier : (earlier.map Field.name).Nodup) :
    collectFields node earlier pieces = .ok fields ↔ ∃ new, fields = earlier ++ new ∧
      List.Forall₂ FieldText pieces new ∧ (fields.map Field.name).Nodup ∧
      ∀ field ∈ new, isReserved field.name = false ∧ field.name ≠ node := by
  induction pieces generalizing earlier with
  | nil =>
    rw [collectFields]
    refine ⟨fun h => ?_, ?_⟩
    · cases h
      exact ⟨[], by simp, .nil, hearlier, by simp⟩
    · rintro ⟨new, rfl, hnew, -, -⟩
      cases hnew
      simp
  | cons piece rest ih =>
    rw [collectFields]
    refine ⟨fun h => ?_, ?_⟩
    · split at h
      · cases h
      · next field hread =>
        obtain ⟨htext, hreserved, hfresh, hnode⟩ := readField_eq_ok_iff.mp hread
        have hnodup : ((earlier ++ [field]).map Field.name).Nodup :=
          nodup_map_append_singleton.mpr ⟨hearlier, hfresh⟩
        obtain ⟨new, rfl, hnew, hfields, hnames⟩ := (ih hnodup).mp h
        refine ⟨field :: new, by simp, .cons htext hnew, hfields, ?_⟩
        simpa using ⟨⟨hreserved, hnode⟩, hnames⟩
    · rintro ⟨new, rfl, hnew, hfields, hnames⟩
      obtain _ | @⟨_, field, _, new, htext, hrest⟩ := hnew
      obtain ⟨⟨hreserved, hnode⟩, hnames⟩ := List.forall_mem_cons.mp hnames
      have hnodup : ((earlier ++ [field]).map Field.name).Nodup := by
        rw [List.append_cons, List.map_append] at hfields
        exact (List.nodup_append.mp hfields).1
      have hfresh := (nodup_map_append_singleton.mp hnodup).2
      rw [readField_eq_ok_iff.mpr ⟨htext, hreserved, hfresh, hnode⟩]
      exact (ih hnodup).mpr ⟨new, by simp, hrest, by simpa using hfields, hnames⟩

theorem fieldsText_intercalate {pieces : List (List Char)} {fields : List Field}
    (h : List.Forall₂ FieldText pieces fields) (hne : pieces ≠ []) :
    FieldsText ([','].intercalate pieces) fields := by
  induction h with
  | nil => exact absurd rfl hne
  | @cons piece field pieces fields hfield hrest ih =>
    cases pieces with
    | nil =>
      cases hrest
      rw [List.intercalate_singleton]
      exact .single hfield
    | cons next pieces =>
      rw [List.intercalate_cons_cons, List.append_assoc, List.singleton_append]
      exact .cons hfield (ih (by simp))

/-- A text derives fields if its pieces between commas do, one each. -/
theorem fieldsText_iff {text : List Char} {fields : List Field} :
    FieldsText text fields ↔ List.Forall₂ FieldText (text.splitOn ',') fields := by
  have hcomma : ∀ {piece : List Char} {field : Field}, FieldText piece field → ',' ∉ piece :=
    fun h => h.not_mem (by decide) (by decide)
  refine ⟨fun h => ?_, fun h => ?_⟩
  · induction h with
    | single h => simpa [List.splitOn_eq_singleton (hcomma h)] using h
    | cons h _ ih =>
      rw [List.splitOn_append_cons_self_of_not_mem (hcomma h)]
      exact .cons h ih
  · have := fieldsText_intercalate h (List.splitOn_ne_nil ',' text)
    rwa [List.intercalate_splitOn] at this

/-- What holds of every field that a text derives holds of all fields of a list. -/
theorem FieldsText.forall_mem {p : Field → Prop}
    (hp : ∀ {text : List Char} {field : Field}, FieldText text field → p field)
    {text : List Char} {fields : List Field} (h : FieldsText text fields) :
    ∀ field ∈ fields, p field := by
  induction h with
  | single h => exact List.forall_mem_singleton.mpr (hp h)
  | cons h _ ih => exact List.forall_mem_cons.mpr ⟨hp h, ih⟩

theorem shadowing_eq_none_iff {fields : List Field} :
    shadowing fields = none ↔
      ∀ field ∈ fields, ∀ other ∈ fields, field.name ∉ typeWords other.type := by
  simp [shadowing, firstUse]

/-- The two fields of which one has the name of a word of a type of the other. -/
theorem mem_of_shadowing {fields : List Field} {field other : Field}
    (h : shadowing fields = some (field, other)) : field ∈ fields ∧ other ∈ fields := by
  obtain ⟨found, hfound, hmap⟩ := List.exists_of_findSome?_eq_some h
  obtain ⟨use, huse, heq⟩ := Option.map_eq_some_iff.mp hmap
  cases heq
  exact ⟨hfound, List.mem_of_find?_eq_some huse⟩

/-- No field has the name of a word of a type exactly if none is a run of name characters
of a type. -/
theorem shadowing_eq_none_iff_not_isNameRun {text : List Char} {fields : List Field}
    (h : FieldsText text fields) :
    shadowing fields = none ↔
      ∀ field ∈ fields, ∀ other ∈ fields, ¬IsNameRun field.name other.type := by
  rw [shadowing_eq_none_iff]
  refine forall₂_congr fun field hfield => forall₂_congr fun other hother => not_congr ?_
  refine mem_typeWords_iff (h.forall_mem FieldText.isTypeExpr_type other hother) fun hempty => ?_
  have hname := h.forall_mem FieldText.isIdentifier_name field hfield
  rw [hempty] at hname
  cases hname

/-- The fields of a node are read from the texts that derive them, if its class can
declare them. -/
theorem readFields_eq_ok_iff {node : String} {text : List Char} {fields : List Field} :
    readFields node text = .ok fields ↔ FieldsText text fields ∧ MembersDeclarable node fields := by
  have hcollect := @collectFields_eq_ok_iff node (text.splitOn ',') [] fields (by simp)
  simp only [List.nil_append, exists_eq_left', ← fieldsText_iff] at hcollect
  refine ⟨fun h => ?_, ?_⟩
  · unfold readFields at h
    split at h
    · cases h
    · next collected hread =>
      split at h
      · cases h
      · next hshadow =>
        cases h
        obtain ⟨htext, hnodup, hnames⟩ := hcollect.mp hread
        exact ⟨htext, hnodup, fun field hfield => (hnames field hfield).1,
          fun field hfield => (hnames field hfield).2,
          (shadowing_eq_none_iff_not_isNameRun htext).mp hshadow⟩
  · rintro ⟨htext, hnodup, hreserved, hnode, hrun⟩
    have hread := hcollect.mpr ⟨htext, hnodup, fun field hfield =>
      ⟨hreserved field hfield, hnode field hfield⟩⟩
    have hshadow := (shadowing_eq_none_iff_not_isNameRun htext).mpr hrun
    simp [readFields, hread, hshadow]

/-! ## Lines -/

theorem LineText.isIdentifier_name {separator : Char} {text : List Char} {name : String}
    {fields : List Field} (h : LineText separator text name fields) : isIdentifier name = true := by
  cases h <;> assumption

theorem LineText.forall_mem {p : Field → Prop}
    (hp : ∀ {text : List Char} {field : Field}, FieldText text field → p field)
    {separator : Char} {text : List Char} {name : String} {fields : List Field}
    (h : LineText separator text name fields) : ∀ field ∈ fields, p field := by
  cases h with
  | bare => simp
  | fields _ _ _ hrest => exact hrest.forall_mem hp

/-- What may follow the name on a line : nothing, or fields after a separator. -/
def TailText : Option (List Char) → List Field → Prop
  | none, fields => fields = []
  | some rest, fields => FieldsText rest fields

/-- The first separator of a line that derives a node is the one behind the name. -/
theorem lineText_iff {separator : Char} {text : List Char} {name : String} {fields : List Field}
    (hseparator : Settings.isSeparator separator = true) :
    LineText separator text name fields ↔ isIdentifier name = true ∧
      trim (cutAt separator text).1 = name.toList ∧ TailText (cutAt separator text).2 fields := by
  refine ⟨fun h => ?_, ?_⟩
  · have hname := h.isIdentifier_name
    have hsolid := solid_of_isTypeExpr (isTypeExpr_of_isIdentifier hname)
    obtain ⟨-, hblank, hchar⟩ := Settings.isSeparator_iff.mp hseparator
    -- what stands before the separator cannot be taken for it
    have hspace : ∀ {s : List Char}, Blank s → separator ∉ s := not_mem_of_blank hblank
    have hnotName := not_mem_of_isTypeExpr (isTypeExpr_of_isIdentifier hname) hchar
    refine ⟨hname, ?_⟩
    cases h with
    | bare hbefore _ hafter =>
      rw [cutAt_of_not_mem (by simp [hspace hbefore, hspace hafter, hnotName])]
      exact ⟨trim_append hbefore hsolid hafter, rfl⟩
    | fields hbefore _ hafter hrest =>
      rw [cutAt_append (by simp [hspace hbefore, hspace hafter, hnotName])]
      exact ⟨trim_append hbefore hsolid hafter, hrest⟩
  · rintro ⟨hname, htrim, htail⟩
    obtain ⟨before, after, hbefore, hafter, hhead⟩ := exists_eq_trim (cutAt separator text).1
    rw [htrim] at hhead
    cases htail' : (cutAt separator text).2 with
    | none =>
      rw [htail'] at htail
      obtain ⟨rfl, -⟩ := cutAt_eq_none (Prod.ext hhead htail')
      rw [TailText] at htail
      rw [htail]
      exact .bare hbefore hname hafter
    | some rest =>
      rw [htail'] at htail
      obtain ⟨rfl, -⟩ := cutAt_eq_some (Prod.ext hhead htail')
      exact .fields hbefore hname hafter htail

/-- A line is read exactly if it derives a node that can be declared, and then as that
node. -/
theorem readNode_eq_ok_iff {settings : Settings} {line : Nat} {text : List Char} {node : Node}
    (hseparator : Settings.isSeparator settings.separator = true) :
    readNode settings line text = .ok node ↔ node.line = line ∧
      LineText settings.separator text node.name node.fields ∧
      NodeDeclarable settings node.name node.fields := by
  rw [lineText_iff hseparator]
  unfold readNode
  generalize cutAt settings.separator text = cut
  refine ⟨fun h => ?_, ?_⟩
  · dsimp only at h
    split_ifs at h with hname hused
    simp only [Bool.not_eq_true', Bool.not_eq_false] at hname
    simp only [Bool.or_eq_true, List.contains_eq_mem, decide_eq_true_eq, not_or,
      Bool.not_eq_true] at hused
    split at h
    · next htail =>
      cases h
      exact ⟨rfl, ⟨hname, by simp, by simp [htail, TailText]⟩, hused.1, hused.2,
        membersDeclarable_nil _⟩
    · next rest htail =>
      split at h
      · cases h
      · next fields hread =>
        cases h
        obtain ⟨htext, hmembers⟩ := readFields_eq_ok_iff.mp hread
        exact ⟨rfl, ⟨hname, by simp, by simpa [htail, TailText] using htext⟩, hused.1,
          hused.2, hmembers⟩
  · obtain ⟨name, fields, _⟩ := node
    rintro ⟨rfl, ⟨hname, htrim, htail⟩, hreserved, hgenerated, hmembers⟩
    dsimp only at hname htrim htail hreserved hgenerated hmembers ⊢
    rw [htrim, String.ofList_toList]
    simp only [hname, hreserved, List.contains_eq_mem, hgenerated]
    cases htail' : cut.2 with
    | none =>
      rw [htail', TailText] at htail
      simp [htail]
    | some rest =>
      rw [htail', TailText] at htail
      simp [readFields_eq_ok_iff.mpr ⟨htail, hmembers⟩]

/-- What is wrong with a line is its name, or a field of a node whose name is an identifier. -/
theorem readNode_eq_error {settings : Settings} {line : Nat} {text : List Char} {reason : Reason}
    (h : readNode settings line text = .error reason) :
    (∃ name, reason = .malformedName name) ∨ ∃ name, isIdentifier name = true ∧
      (reason = .reservedName name ∨ ∃ rest, readFields name rest = .error reason) := by
  unfold readNode at h
  dsimp only at h
  split_ifs at h with hname hused
  · cases h
    exact .inl ⟨_, rfl⟩
  · cases h
    exact .inr ⟨_, by simpa using hname, .inl rfl⟩
  · split at h
    · cases h
    · next rest htail =>
      split at h
      · next hread =>
        cases h
        exact .inr ⟨_, by simpa using hname, .inr ⟨rest, hread⟩⟩
      · cases h

end NodeSchema
