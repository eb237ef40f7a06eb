import Mathlib.Data.List.Induction
import NodeSchema.Proofs.Reading

/-!
# Runs of pushes

A schema is made by pushing nodes into the empty one. A push adds its node, or hands it back and
leaves the schema as it was (`PushRun.push`). What a run of pushes leaves behind can be told from
the nodes alone : the schema keeps those that were not handed back, in the order in which they were
pushed, and these are the first ones with their names (`PushRun.Sound`). One more push does not
change that (`PushRun.Sound.push`), so it holds behind every run.

`PushRun.tellsHistory_ofNodes` : what a schema says about its nodes is what has happened, and a push
is refused exactly if one with the same name was accepted before.
-/

namespace NodeSchema

/-- A run of pushes into the empty schema. -/
structure PushRun where
  /-- The nodes that were not handed back, in the order in which they were pushed. -/
  accepted : List Node
  /-- The schema that the pushes have led to. -/
  schema : Schema
deriving DecidableEq

namespace PushRun

/-- The run that has pushed nothing yet. -/
def start : PushRun :=
  ⟨[], .empty⟩

/-- The run with one more push. If the node is handed back, all is as it was. -/
def push (run : PushRun) (node : Node) : PushRun :=
  match run.schema.push node with
  | .ok larger => ⟨run.accepted ++ [node], larger⟩
  | .error _ => run

/-- The run that pushes these nodes, one after the other. -/
def ofNodes (nodes : List Node) : PushRun :=
  nodes.foldl push start

theorem ofNodes_append_singleton (nodes : List Node) (node : Node) :
    ofNodes (nodes ++ [node]) = (ofNodes nodes).push node := by
  simp [ofNodes]

/-! ## What a push preserves -/

/-- Behind a run that has pushed these nodes, the schema keeps the accepted ones. No two of them
have one name, and each is the first node that was pushed with its name. -/
structure Sound (nodes : List Node) (run : PushRun) : Prop where
  schema_eq : run.schema = .ofNodes run.accepted
  nodup : (run.accepted.map Node.name).Nodup
  find?_eq : ∀ name, run.accepted.find? (fun node => node.name = name) =
    nodes.find? fun node => node.name = name

section Step

variable {nodes : List Node} {run : PushRun}

/-- A node is accepted exactly if no node with its name was. -/
theorem Sound.push_eq (h : Sound nodes run) (node : Node) :
    run.push node =
      if node.name ∈ run.accepted.map Node.name then run
      else ⟨run.accepted ++ [node], .ofNodes (run.accepted ++ [node])⟩ := by
  rw [PushRun.push, h.schema_eq, Schema.push_ofNodes]
  split_ifs <;> rfl

/-- A node with a taken name is the first one with no name. -/
theorem Sound.find?_append_taken (h : Sound nodes run) {node : Node}
    (htaken : node.name ∈ run.accepted.map Node.name) (name : String) :
    (nodes ++ [node]).find? (fun other => other.name = name) =
      nodes.find? fun other => other.name = name := by
  rw [List.find?_append, ← h.find?_eq]
  by_cases hname : node.name = name
  · obtain ⟨other, hother, heq⟩ := List.mem_map.mp htaken
    have hfound : (run.accepted.find? fun other => other.name = name).isSome = true :=
      List.find?_isSome.mpr ⟨other, hother, by simp [heq, hname]⟩
    exact Option.or_of_isSome hfound
  · simp [hname]

theorem Sound.push (h : Sound nodes run) (node : Node) :
    Sound (nodes ++ [node]) (run.push node) := by
  rw [h.push_eq]
  split_ifs with htaken
  · exact ⟨h.schema_eq, h.nodup, fun name => by rw [h.find?_append_taken htaken, h.find?_eq]⟩
  · have hfree : ∀ other ∈ run.accepted, other.name ≠ node.name :=
      fun other hother heq => htaken (heq ▸ List.mem_map_of_mem hother)
    refine ⟨rfl, nodup_map_append_singleton.mpr ⟨h.nodup, hfree⟩, fun name => ?_⟩
    rw [List.find?_append, List.find?_append, h.find?_eq]

end Step

theorem sound_ofNodes (nodes : List Node) : Sound nodes (ofNodes nodes) := by
  induction nodes using List.reverseRecOn with
  | nil => exact ⟨rfl, List.nodup_nil, fun _ => rfl⟩
  | append_singleton nodes node ih =>
    rw [ofNodes_append_singleton]
    exact ih.push node

/-! ## What the schema tells -/

/-- A schema says that a name is taken exactly if it has a node for it. -/
theorem contains_eq_isSome_get? (schema : Schema) (name : String) :
    schema.contains name = (schema.get? name).isSome := by
  rw [Bool.eq_iff_iff, Schema.contains_iff, Schema.get?, List.lookup_isSome_iff, Schema.names,
    List.mem_map]
  simp only [beq_iff_eq, @eq_comm _ name]

/-- What the schema behind the pushes of these nodes says, and how it answers to one more. -/
structure TellsHistory (nodes : List Node) (run : PushRun) : Prop where
  /-- Each node is kept under its own name. -/
  keyed : ∀ entry ∈ run.schema.entries, entry.1 = entry.2.name
  nodup : run.schema.names.Nodup
  /-- The nodes are the accepted ones, in the order in which they were pushed. -/
  nodes_eq : run.schema.nodes = run.accepted
  size_eq : run.schema.size = run.accepted.length
  /-- Under a name is the first node that was ever pushed with it, and none if there was none. -/
  get?_eq : ∀ name, run.schema.get? name = nodes.find? fun node => node.name = name
  contains_eq : ∀ name, run.schema.contains name = (run.schema.get? name).isSome
  /-- A push is refused exactly if its name was accepted before, and hands back that very node. -/
  push_eq_error_iff : ∀ node back, run.schema.push node = .error back ↔
    (∃ earlier ∈ run.accepted, earlier.name = node.name) ∧ back = node
  /-- A refused push leaves all as it was. -/
  push_refused : ∀ node, (∃ earlier ∈ run.accepted, earlier.name = node.name) →
    run.push node = run

/-- Behind every run of pushes the schema tells what has happened. -/
theorem tellsHistory_ofNodes (nodes : List Node) : TellsHistory nodes (ofNodes nodes) := by
  have hsound := sound_ofNodes nodes
  generalize ofNodes nodes = run at hsound
  have hnames : run.schema.names = run.accepted.map Node.name := by
    rw [hsound.schema_eq, Schema.names_ofNodes]
  refine ⟨?_, hnames ▸ hsound.nodup, ?_, ?_, fun name => ?_, contains_eq_isSome_get? _,
    fun node back => ?_, fun node htaken => ?_⟩
  · rw [hsound.schema_eq]
    simp [Schema.ofNodes]
  · rw [hsound.schema_eq, Schema.nodes_ofNodes]
  · rw [hsound.schema_eq]
    simp [Schema.ofNodes, Schema.size]
  · rw [hsound.schema_eq, Schema.get?_ofNodes, hsound.find?_eq]
  · rw [Schema.push_eq_error_iff, hnames, List.mem_map]
  · rw [hsound.push_eq, if_pos (List.mem_map.mpr htaken)]

-- the second node named `a` is refused, and the first one stays
example : PushRun.ofNodes [⟨"a", [], 1⟩, ⟨"b", [], 2⟩, ⟨"a", [⟨"t", "f"⟩], 3⟩, ⟨"c", [], 4⟩] =
    ⟨[⟨"a", [], 1⟩, ⟨"b", [], 2⟩, ⟨"c", [], 4⟩],
      .ofNodes [⟨"a", [], 1⟩, ⟨"b", [], 2⟩, ⟨"c", [], 4⟩]⟩ := by
  decide

end PushRun

end NodeSchema
