import NodeSchema.Proofs.Grammar

/-!
# Reading a schema text

A run of the reader over the lines of a text, in terms of its single lines. The lines
that are not blank define the nodes, and each of them has its number among all lines
(`definingLines`). A run that succeeds has read a node on each of these lines, with no
name twice (`readLines_eq_ok_iff`); a run that fails has succeeded on the lines before
the one at which it fails (`readLines_eq_error_iff`).

`read_eq_ok_iff_describes` : a text is read as a schema exactly if it describes that
schema, line by line and by the grammar.
-/

namespace NodeSchema

open Text

/-! ## Schemas as lists of nodes -/

/-- The schema that keeps each of the nodes under its own name. -/
def Schema.ofNodes (nodes : List Node) : Schema :=
  ⟨nodes.map fun node => (node.name, node)⟩

namespace Schema

@[simp] theorem nodes_ofNodes (nodes : List Node) : (ofNodes nodes).nodes = nodes := by
  simp [ofNodes, Schema.nodes, Function.comp_def]

@[simp] theorem names_ofNodes (nodes : List Node) :
    (ofNodes nodes).names = nodes.map Node.name := by
  simp [ofNodes, names, Function.comp_def]

/-- A node is added behind the others, unless one of them has its name. -/
theorem push_ofNodes (nodes : List Node) (node : Node) :
    (ofNodes nodes).push node =
      if node.name ∈ nodes.map Node.name then .error node else .ok (ofNodes (nodes ++ [node])) := by
  split_ifs with h
  · exact push_eq_error_iff.mpr ⟨by rwa [names_ofNodes], rfl⟩
  · exact push_eq_ok_iff.mpr ⟨by rwa [names_ofNodes], by simp [ofNodes]⟩

/-- The node under a name is the first one that has it. -/
theorem get?_ofNodes (nodes : List Node) (name : String) :
    (ofNodes nodes).get? name = nodes.find? fun node => node.name = name := by
  induction nodes with
  | nil => rfl
  | cons node rest ih =>
    rw [ofNodes, get?] at ih
    rw [ofNodes, get?, List.map_cons, List.lookup_cons, ih, List.find?_cons]
    by_cases h : node.name = name
    · simp [h]
    · simp [h, beq_eq_false_iff_ne.mpr (Ne.symm h)]

end Schema

/-! ## Single lines -/

/-- The lines that are not blank, with their numbers, the first line being number `line`. -/
def definingLines (line : Nat) (texts : List (List Char)) : List (List Char × Nat) :=
  (texts.zipIdx line).filter fun entry => !entry.1.all isBlank

@[simp] theorem definingLines_nil (line : Nat) : definingLines line [] = [] := rfl

theorem definingLines_cons_of_blank {text : List Char} (h : Blank text) (line : Nat)
    (texts : List (List Char)) :
    definingLines line (text :: texts) = definingLines (line + 1) texts := by
  simp [definingLines, blank_iff_all.mp h]

theorem definingLines_cons {text : List Char} (h : ¬Blank text) (line : Nat)
    (texts : List (List Char)) :
    definingLines line (text :: texts) = (text, line) :: definingLines (line + 1) texts := by
  rw [blank_iff_all, Bool.not_eq_true] at h
  simp [definingLines, h]

theorem mem_definingLines_iff {line : Nat} {texts : List (List Char)} {entry : List Char × Nat} :
    entry ∈ definingLines line texts ↔
      ¬Blank entry.1 ∧ ∃ i, texts[i]? = some entry.1 ∧ entry.2 = line + i := by
  obtain ⟨text, number⟩ := entry
  rw [definingLines, List.mem_filter, List.mk_mem_zipIdx_iff_le_and_getElem?_sub, blank_iff_all]
  refine ⟨?_, ?_⟩
  · rintro ⟨⟨hle, htext⟩, hblank⟩
    exact ⟨by simpa using hblank, number - line, htext, by omega⟩
  · rintro ⟨hblank, i, htext, rfl⟩
    exact ⟨⟨by omega, by simpa using htext⟩, by simpa using hblank⟩

theorem readLine_of_blank {settings : Settings} {schema : Schema} {line : Nat} {text : List Char}
    (h : Blank text) : readLine settings schema line text = .ok schema := by
  simp [readLine, trim_eq_nil_iff.mpr h]

section NotBlank

variable {settings : Settings} {nodes : List Node} {line : Nat} {text : List Char}

/-- What a line that is not blank comes to : a node that cannot be read is a fault, and
one whose name an earlier node has, and any other is added. -/
theorem readLine_ofNodes (h : ¬Blank text) :
    readLine settings (.ofNodes nodes) line text =
      match readNode settings line text with
      | .error reason => .error ⟨line, String.ofList (trim text), reason⟩
      | .ok node =>
        match nodes.find? fun other => other.name = node.name with
        | none => .ok (.ofNodes (nodes ++ [node]))
        | some first =>
          .error ⟨line, String.ofList (trim text), .duplicateNode node.name first.line⟩ := by
  have htrim : (trim text).isEmpty = false := by simpa using mt trim_eq_nil_iff.mp h
  rw [readLine, htrim, if_neg Bool.false_ne_true]
  cases readNode settings line text with
  | error reason => rfl
  | ok node =>
    dsimp only
    rw [Schema.push_ofNodes]
    cases hfind : nodes.find? fun other => other.name = node.name with
    | none =>
      have hfree : node.name ∉ nodes.map Node.name := by
        rw [List.mem_map]
        rintro ⟨other, hother, heq⟩
        simpa [heq] using List.find?_eq_none.mp hfind other hother
      rw [if_neg hfree]
    | some first =>
      have htaken : node.name ∈ nodes.map Node.name :=
        List.mem_map.mpr ⟨first, List.mem_of_find?_eq_some hfind, by
          simpa using List.find?_some hfind⟩
      rw [if_pos htaken]
      dsimp only
      rw [Schema.get?_ofNodes, hfind]
      rfl

/-- A line that is not blank adds the node that it defines, if the name is free. -/
theorem readLine_eq_ok_iff {schema : Schema} (h : ¬Blank text) :
    readLine settings (.ofNodes nodes) line text = .ok schema ↔ ∃ node,
      readNode settings line text = .ok node ∧ (∀ other ∈ nodes, other.name ≠ node.name) ∧
      schema = .ofNodes (nodes ++ [node]) := by
  rw [readLine_ofNodes h]
  cases readNode settings line text with
  | error reason => simp
  | ok node =>
    cases hfind : nodes.find? fun other => other.name = node.name with
    | none =>
      have hfree : ∀ other ∈ nodes, other.name ≠ node.name := by simpa using hfind
      simp only [hfind, Except.ok.injEq, exists_eq_left']
      exact ⟨fun heq => ⟨hfree, heq.symm⟩, fun heq => heq.2.symm⟩
    | some first =>
      have htaken : first.name = node.name := by simpa using List.find?_some hfind
      simp only [hfind, Except.ok.injEq, exists_eq_left', reduceCtorEq, false_iff, not_and]
      exact fun hfree => absurd htaken (hfree first (List.mem_of_find?_eq_some hfind))

/-- A line that is not blank is at fault if no node can be read on it, or if an earlier
node has its name. -/
theorem readLine_eq_error_iff {fault : Fault} (h : ¬Blank text) :
    readLine settings (.ofNodes nodes) line text = .error fault ↔
      (∃ reason, readNode settings line text = .error reason ∧
        fault = ⟨line, String.ofList (trim text), reason⟩) ∨
      ∃ node first, readNode settings line text = .ok node ∧
        nodes.find? (fun other => other.name = node.name) = some first ∧
        fault = ⟨line, String.ofList (trim text), .duplicateNode node.name first.line⟩ := by
  rw [readLine_ofNodes h]
  cases readNode settings line text with
  | error reason => simp [eq_comm]
  | ok node =>
    cases hfind : nodes.find? fun other => other.name = node.name with
    | none => simp [hfind]
    | some first => simp [hfind, @eq_comm _ fault]

end NotBlank

/-- A fault shows the trimmed line, and is about this line alone or about its name. -/
theorem readLine_eq_error {settings : Settings} {schema : Schema} {line : Nat} {text : List Char}
    {fault : Fault} (h : readLine settings schema line text = .error fault) :
    fault.line = line ∧ fault.text = String.ofList (trim text) ∧
      (readNode settings line text = .error fault.reason ∨
        ∃ node firstLine, readNode settings line text = .ok node ∧
          fault.reason = .duplicateNode node.name firstLine) := by
  unfold readLine at h
  dsimp only at h
  split_ifs at h
  split at h
  · next hread =>
    cases h
    exact ⟨rfl, rfl, .inl hread⟩
  · next node hread =>
    split at h
    · cases h
    · next taken hpush =>
      obtain ⟨-, rfl⟩ := Schema.push_eq_error_iff.mp hpush
      cases h
      exact ⟨rfl, rfl, .inr ⟨taken, _, hread, rfl⟩⟩

/-! ## Runs -/

section Forall₂

variable {α β : Type*} {R : α → β → Prop} {as : List α} {bs : List β}

theorem exists_left_of_mem (h : List.Forall₂ R as bs) {b : β} (hb : b ∈ bs) :
    ∃ a ∈ as, R a b := by
  induction h with
  | nil => cases hb
  | cons hhead _ ih =>
    rcases List.mem_cons.mp hb with rfl | hb
    · exact ⟨_, List.mem_cons_self, hhead⟩
    · obtain ⟨a, ha, hab⟩ := ih hb
      exact ⟨a, List.mem_cons_of_mem _ ha, hab⟩

theorem exists_right_of_mem (h : List.Forall₂ R as bs) {a : α} (ha : a ∈ as) :
    ∃ b ∈ bs, R a b :=
  exists_left_of_mem (R := fun b a => R a b) h.flip ha

end Forall₂

/-- A run that ends well has read one node on each line that is not blank, and no two
nodes with the same name. -/
theorem readLines_eq_ok_iff {settings : Settings} {line : Nat} {texts : List (List Char)}
    {before : List Node} {schema : Schema} (hbefore : (before.map Node.name).Nodup) :
    readLines settings (.ofNodes before) line texts = .ok schema ↔ ∃ nodes,
      schema = .ofNodes (before ++ nodes) ∧
      List.Forall₂ (fun entry node => readNode settings entry.2 entry.1 = .ok node)
        (definingLines line texts) nodes ∧
      ((before ++ nodes).map Node.name).Nodup := by
  induction texts generalizing before line with
  | nil =>
    rw [readLines, definingLines_nil]
    refine ⟨fun h => ?_, ?_⟩
    · cases h
      exact ⟨[], by simp, .nil, by simpa using hbefore⟩
    · rintro ⟨nodes, rfl, hnodes, -⟩
      cases hnodes
      simp
  | cons text rest ih =>
    rw [readLines]
    by_cases hblank : Blank text
    · rw [readLine_of_blank hblank, definingLines_cons_of_blank hblank]
      exact ih hbefore
    · rw [definingLines_cons hblank]
      refine ⟨fun h => ?_, ?_⟩
      · split at h
        · cases h
        · next larger hline =>
          obtain ⟨node, hnode, hfree, rfl⟩ := (readLine_eq_ok_iff hblank).mp hline
          have hnodup := nodup_map_append_singleton.mpr ⟨hbefore, hfree⟩
          obtain ⟨nodes, rfl, hnodes, hall⟩ := (ih hnodup).mp h
          exact ⟨node :: nodes, by simp, .cons hnode hnodes, by simpa using hall⟩
      · rintro ⟨nodes, rfl, hnodes, hall⟩
        obtain _ | @⟨_, node, _, nodes, hnode, hrest⟩ := hnodes
        have hnodup : ((before ++ [node]).map Node.name).Nodup := by
          rw [List.append_cons, List.map_append] at hall
          exact (List.nodup_append.mp hall).1
        have hfree := (nodup_map_append_singleton.mp hnodup).2
        rw [(readLine_eq_ok_iff hblank).mpr ⟨node, hnode, hfree, rfl⟩]
        exact (ih hnodup).mpr ⟨nodes, by simp, hrest, by simpa using hall⟩

/-- A run that fails has ended well on the lines before the one at fault. -/
theorem readLines_eq_error_iff {settings : Settings} {schema : Schema} {line : Nat}
    {texts : List (List Char)} {fault : Fault} :
    readLines settings schema line texts = .error fault ↔ ∃ earlier text later middle,
      texts = earlier ++ text :: later ∧ readLines settings schema line earlier = .ok middle ∧
      readLine settings middle (line + earlier.length) text = .error fault := by
  induction texts generalizing schema line with
  | nil => simp [readLines]
  | cons first rest ih =>
    rw [readLines]
    refine ⟨fun h => ?_, ?_⟩
    · split at h
      · next found hline =>
        cases h
        exact ⟨[], first, rest, schema, rfl, rfl, hline⟩
      · next larger hline =>
        obtain ⟨earlier, text, later, middle, rfl, hearlier, hfault⟩ := ih.mp h
        refine ⟨first :: earlier, text, later, middle, rfl, ?_, ?_⟩
        · rw [readLines, hline]
          exact hearlier
        · rw [List.length_cons, ← hfault]
          congr 1
          omega
    · rintro ⟨earlier, text, later, middle, heq, hearlier, hfault⟩
      cases earlier with
      | nil =>
        cases heq
        cases hearlier
        rw [show readLine settings schema line first = .error fault from hfault]
      | cons _ earlier =>
        cases heq
        rw [readLines] at hearlier
        split at hearlier
        · cases hearlier
        · refine ih.mpr ⟨earlier, text, later, middle, rfl, hearlier, ?_⟩
          rw [← hfault, List.length_cons]
          congr 1
          omega

/-- The nodes of a text are read from its lines that are not blank, one from each, and no
name is read twice. -/
theorem read_eq_ok_iff_ofNodes {settings : Settings} {source : String} {schema : Schema} :
    Schema.read settings source = .ok schema ↔ ∃ nodes, schema = .ofNodes nodes ∧
      List.Forall₂ (fun entry node => readNode settings entry.2 entry.1 = .ok node)
        (definingLines 1 (lines source.toList)) nodes ∧ (nodes.map Node.name).Nodup := by
  rw [Schema.read, show Schema.empty = .ofNodes [] from rfl, readLines_eq_ok_iff (by simp)]
  simp only [List.nil_append]

/-! ## The schema that a text describes -/

/-- A text describes a schema : its lines that are not blank derive the nodes of the
schema, one each and in this order, with the numbers of the lines and as nodes that can
be declared; no two nodes have one name; and the schema keeps each under its own. -/
structure Describes (settings : Settings) (source : String) (schema : Schema) : Prop where
  nodes : List.Forall₂
    (fun entry node => node.line = entry.2 ∧
      LineText settings.separator entry.1 node.name node.fields ∧
      NodeDeclarable settings node.name node.fields)
    (definingLines 1 (lines source.toList)) schema.nodes
  nodup : (schema.nodes.map Node.name).Nodup
  keyed : schema = .ofNodes schema.nodes

/-- With usable settings a text is read as a schema exactly if it describes the schema. -/
theorem read_eq_ok_iff_describes {settings : Settings} {source : String} {schema : Schema}
    (hcheck : settings.check = .ok ()) :
    Schema.read settings source = .ok schema ↔ Describes settings source schema := by
  have hseparator := (Settings.check_eq_ok_iff.mp hcheck).separator
  simp only [read_eq_ok_iff_ofNodes, readNode_eq_ok_iff hseparator]
  refine ⟨?_, ?_⟩
  · rintro ⟨nodes, rfl, hnodes, hnodup⟩
    exact ⟨by simpa using hnodes, by simpa using hnodup, by simp⟩
  · rintro ⟨hnodes, hnodup, hkeyed⟩
    exact ⟨schema.nodes, hkeyed, hnodes, hnodup⟩

/-- A text with blank lines, ends of lines of both kinds, and white space wherever it may
stand. -/
theorem describes_three_nodes :
    Settings.standard.check = .ok () ∧
      Describes .standard "\r\n\tunary|expr  child\r\n \nbinary | list<a> lhs ,\ttoken op\nempty"
        (.ofNodes
          [⟨"unary", [⟨"expr", "child"⟩], 2⟩,
           ⟨"binary", [⟨"list<a>", "lhs"⟩, ⟨"token", "op"⟩], 4⟩,
           ⟨"empty", [], 5⟩]) :=
  ⟨by decide, (read_eq_ok_iff_describes (by decide)).mp (by decide)⟩

/-! ## Schemas that are read -/

/-- Schemas that a header can declare : their names and types can be written, each node
can be declared, and no name is given twice. -/
structure Schema.Declarable (settings : Settings) (schema : Schema) : Prop where
  keyed : schema = .ofNodes schema.nodes
  nodup : (schema.nodes.map Node.name).Nodup
  isIdentifier_name : ∀ node ∈ schema.nodes, isIdentifier node.name = true
  isTypeExpr_type : ∀ node ∈ schema.nodes, ∀ field ∈ node.fields, isTypeExpr field.type = true
  isIdentifier_field : ∀ node ∈ schema.nodes, ∀ field ∈ node.fields, isIdentifier field.name = true
  node : ∀ node ∈ schema.nodes, NodeDeclarable settings node.name node.fields

theorem declarable_of_read {settings : Settings} {source : String} {schema : Schema}
    (hcheck : settings.check = .ok ()) (hread : Schema.read settings source = .ok schema) :
    schema.Declarable settings := by
  have hseparator := (Settings.check_eq_ok_iff.mp hcheck).separator
  obtain ⟨nodes, rfl, hnodes, hnodup⟩ := read_eq_ok_iff_ofNodes.mp hread
  have hline : ∀ node ∈ nodes, ∃ text, LineText settings.separator text node.name node.fields ∧
      NodeDeclarable settings node.name node.fields := by
    intro node hnode
    obtain ⟨entry, -, hentry⟩ := exists_left_of_mem hnodes hnode
    exact ⟨entry.1, ((readNode_eq_ok_iff hseparator).mp hentry).2⟩
  rw [← Schema.nodes_ofNodes nodes] at hline
  refine ⟨by simp, by simpa using hnodup, fun node hnode => ?_, fun node hnode => ?_,
    fun node hnode => ?_, fun node hnode => ?_⟩
  all_goals obtain ⟨text, htext, hdeclarable⟩ := hline node hnode
  · exact htext.isIdentifier_name
  · exact htext.forall_mem FieldText.isTypeExpr_type
  · exact htext.forall_mem FieldText.isIdentifier_name
  · exact hdeclarable

end NodeSchema
