import NodeSchema.Document
import NodeSchema.Proofs.CompactText
import NodeSchema.Proofs.LineOrder
import NodeSchema.Proofs.PrettyText

/-!
# Schemas with the same nodes

Two schemas that keep the same nodes under the same names (`Schema.sameNodes`) may keep them in
different orders : what is compared is a permutation (`sameNodes_ofNodes_iff`). Of schemas that
were read from texts it is more. The line of a node is part of the node, and the nodes of a text
stand on lines further and further down (`pairwise_line_of_read`), so their lines put them back
into order, and the schemas are equal.

The JSON texts of two schemas say less, since they leave the lines out. They are equal if the
nodes declare the same, in the same order, and only then, for a value can be read off its text.
-/

namespace NodeSchema

theorem Field.toJson_injective : Function.Injective Field.toJson := by
  rintro ⟨type, name⟩ ⟨type', name'⟩ h
  simp only [Field.toJson, Json.obj.injEq, List.cons.injEq, Prod.mk.injEq, Json.str.injEq] at h
  obtain ⟨⟨-, rfl⟩, ⟨-, rfl⟩, -⟩ := h
  rfl

namespace Schema

/-! ## Orders of nodes -/

/-- Schemas keep the same nodes if each can be had from the other by moving nodes. -/
theorem sameNodes_ofNodes_iff {nodes others : List Node} (hnodes : (nodes.map Node.name).Nodup)
    (hothers : (others.map Node.name).Nodup) :
    (ofNodes nodes).sameNodes (ofNodes others) = true ↔ nodes.Perm others := by
  have hsame : (ofNodes nodes).sameNodes (ofNodes others) = true ↔
      nodes.length = others.length ∧ nodes ⊆ others := by
    rw [sameNodes, Bool.and_eq_true, beq_iff_eq, List.all_eq_true]
    simp only [get?_ofNodes, beq_iff_eq, find?_eq_some_iff hothers]
    simp [ofNodes, size, List.subset_def]
  rw [hsame]
  refine ⟨?_, fun hperm => ⟨hperm.length_eq, hperm.subset⟩⟩
  rintro ⟨hlength, hsubset⟩
  have hsubperm := List.subperm_of_subset (List.Nodup.of_map _ hnodes) hsubset
  exact hsubperm.perm_of_length_le hlength.ge

theorem pairwise_definingLines (line : ℕ) (texts : List (List Char)) :
    (definingLines line texts).Pairwise fun entry later => entry.2 < later.2 := by
  refine List.Pairwise.filter _ ?_
  rw [← List.pairwise_map (f := Prod.snd), List.zipIdx_map_snd]
  exact List.pairwise_lt_range'

/-- The nodes of a text stand on lines further and further down. -/
theorem pairwise_line_of_read {settings : Settings} {source : String} {schema : Schema}
    (h : read settings source = .ok schema) :
    schema.nodes.Pairwise fun node later => node.line < later.line := by
  obtain ⟨nodes, rfl, hnodes, -⟩ := read_eq_ok_iff_ofNodes.mp h
  have hlines : nodes.map Node.line =
      (definingLines 1 (Text.lines source.toList)).map Prod.snd := by
    rw [eq_comm, ← List.forall₂_eq_eq_eq, List.forall₂_map_left_iff, List.forall₂_map_right_iff]
    exact hnodes.imp fun entry node hread => (line_of_readNode hread).symm
  rw [nodes_ofNodes, ← List.pairwise_map (f := Node.line), hlines, List.pairwise_map]
  exact pairwise_definingLines 1 _

/-- Nodes on lines further and further down are in the only such order. -/
theorem eq_of_perm_of_pairwise_line {nodes others : List Node} (hperm : nodes.Perm others)
    (hnodes : nodes.Pairwise fun node later => node.line < later.line)
    (hothers : others.Pairwise fun node later => node.line < later.line) : nodes = others :=
  hperm.eq_of_pairwise (fun _ _ _ _ hlt hgt => absurd hlt hgt.asymm) hnodes hothers

/-! ## JSON values of schemas -/

/-- What a node declares, as the member of the object of its schema. -/
def declaredMember (declared : String × List Field) : String × Json :=
  (declared.1, .obj
    [("name", .str declared.1), ("fields", .arr (declared.2.map Field.toJson))])

theorem declaredMember_injective : Function.Injective declaredMember := by
  rintro ⟨name, fields⟩ ⟨name', fields'⟩ h
  simp only [declaredMember, Prod.mk.injEq, Json.obj.injEq, List.cons.injEq, Json.arr.injEq] at h
  obtain ⟨rfl, -, ⟨-, hfields⟩, -⟩ := h
  rw [List.map_injective_iff.mpr Field.toJson_injective hfields]

theorem toJson_ofNodes (nodes : List Node) :
    (ofNodes nodes).toJson = .obj ((nodes.map Node.declared).map declaredMember) := by
  simp only [toJson, ofNodes, List.map_map]
  rfl

/-- Schemas have one JSON value if their nodes declare the same in the same order. -/
theorem toJson_ofNodes_inj {nodes others : List Node} :
    (ofNodes nodes).toJson = (ofNodes others).toJson ↔
      nodes.map Node.declared = others.map Node.declared := by
  rw [toJson_ofNodes, toJson_ofNodes, Json.obj.injEq,
    (List.map_injective_iff.mpr declaredMember_injective).eq_iff]

/-! ## Schemas that are read -/

/-- Comparing two schemas that were read, without regard to the order of their nodes, compares
them with their orders and lines, so nothing that is made of them can differ. Their JSON texts
compare them with their orders and without their lines. -/
theorem sameNodes_exact {settings : Settings} {first second : String} {a b : Schema}
    (ha : read settings first = .ok a) (hb : read settings second = .ok b) :
    (a.sameNodes b = true ↔ a.nodes = b.nodes) ∧
    (a.sameNodes b = true →
      a.toJson.compact = b.toJson.compact ∧ a.toJson.pretty = b.toJson.pretty ∧
        ∀ others : Settings, a.header others = b.header others) ∧
    (a.toJson.compact = b.toJson.compact ↔
      a.nodes.map Node.declared = b.nodes.map Node.declared) ∧
    (a.toJson.pretty = b.toJson.pretty ↔
      a.nodes.map Node.declared = b.nodes.map Node.declared) := by
  have hlines := pairwise_line_of_read ha
  have hlines' := pairwise_line_of_read hb
  obtain ⟨nodes, rfl, -, hnodup⟩ := read_eq_ok_iff_ofNodes.mp ha
  obtain ⟨others, rfl, -, hnodup'⟩ := read_eq_ok_iff_ofNodes.mp hb
  simp only [nodes_ofNodes] at hlines hlines' ⊢
  have hsame : (ofNodes nodes).sameNodes (ofNodes others) = true ↔ nodes = others := by
    rw [sameNodes_ofNodes_iff hnodup hnodup']
    exact ⟨fun hperm => eq_of_perm_of_pairwise_line hperm hlines hlines', fun h => h ▸ .rfl⟩
  refine ⟨hsame, fun h => ?_, ?_, ?_⟩
  · obtain rfl := hsame.mp h
    exact ⟨rfl, rfl, fun _ => rfl⟩
  · rw [Json.compact_injective.eq_iff, toJson_ofNodes_inj]
  · rw [Json.pretty_injective.eq_iff, toJson_ofNodes_inj]

/-- A blank line in front sets the schemas of two texts apart, and leaves their JSON texts. -/
theorem sameNodes_exact_blank_line :
    ∃ a b, read .standard "leaf\nunary | leaf child" = .ok a ∧
      read .standard "\nleaf\nunary | leaf child" = .ok b ∧
      a.sameNodes b = false ∧ a.toJson.compact = b.toJson.compact := by
  have ha : read .standard "leaf\nunary | leaf child" =
      .ok (ofNodes [⟨"leaf", [], 1⟩, ⟨"unary", [⟨"leaf", "child"⟩], 2⟩]) := by
    decide
  have hb : read .standard "\nleaf\nunary | leaf child" =
      .ok (ofNodes [⟨"leaf", [], 2⟩, ⟨"unary", [⟨"leaf", "child"⟩], 3⟩]) := by
    decide
  obtain ⟨hsame, -, hcompact, -⟩ := sameNodes_exact ha hb
  refine ⟨_, _, ha, hb, ?_, hcompact.mpr (by decide)⟩
  rw [← Bool.not_eq_true, hsame]
  decide

end Schema

end NodeSchema
