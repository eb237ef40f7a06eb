/-!
# Schemas

A schema is the collection of node types that one header declares, kept under their
names in the order in which they were added. A name is taken once and for all : `push`
hands a second node of that name back, and the schema stays as it was.

Two schemas hold the same nodes (`Schema.sameNodes`) when each name leads to the same
node in both. That comparison does not look at the order.
-/

namespace NodeSchema

/-- One member of a node : a type, kept as written, and a name. -/
structure Field where
  /-- The declared type. -/
  type : String
  /-- The name of the member. -/
  name : String
deriving DecidableEq

/-- A node type : its name, its members in the order of the constructor's parameters,
and the line of its definition. -/
structure Node where
  /-- The name of the node's class. -/
  name : String
  /-- The members, in declaration order. -/
  fields : List Field
  /-- The line of the definition, counted from one. -/
  line : Nat
deriving DecidableEq

/-- Node types under their names, in the order in which they were added. -/
structure Schema where
  /-- The nodes with the names they are kept under. -/
  entries : List (String × Node)
deriving DecidableEq

namespace Schema

/-- The schema without nodes. -/
def empty : Schema :=
  ⟨[]⟩

/-- The names, in the order in which they were added. -/
def names (s : Schema) : List String :=
  s.entries.map Prod.fst

/-- The nodes, in the order in which they were added. -/
def nodes (s : Schema) : List Node :=
  s.entries.map Prod.snd

/-- The number of nodes. -/
def size (s : Schema) : Nat :=
  s.entries.length

/-- Whether there is no node. -/
def isEmpty (s : Schema) : Bool :=
  s.entries.isEmpty

/-- The node kept under a name. -/
def get? (s : Schema) (name : String) : Option Node :=
  s.entries.lookup name

/-- Whether a node is kept under the name. -/
def contains (s : Schema) (name : String) : Bool :=
  s.names.contains name

/-- Adds a node under its name. If the name is taken, the node is handed back. -/
def push (s : Schema) (node : Node) : Except Node Schema :=
  if s.contains node.name then .error node else .ok ⟨s.entries ++ [(node.name, node)]⟩

/-- Whether two schemas keep the same nodes under the same names, in whatever order. -/
def sameNodes (a b : Schema) : Bool :=
  a.size == b.size && a.entries.all fun entry => b.get? entry.1 == some entry.2

/-! ## What adding a node does -/

@[simp] theorem names_empty : empty.names = [] := rfl

@[simp] theorem nodes_empty : empty.nodes = [] := rfl

theorem contains_iff {s : Schema} {name : String} : s.contains name = true ↔ name ∈ s.names := by
  simp [contains]

/-- A schema takes a node exactly if its name is free, and then keeps it last. -/
theorem push_eq_ok_iff {s t : Schema} {node : Node} :
    s.push node = .ok t ↔ node.name ∉ s.names ∧ t = ⟨s.entries ++ [(node.name, node)]⟩ := by
  unfold push
  split
  · next h => simp [contains_iff.mp h]
  · next h =>
    rw [contains_iff] at h
    simp [h, eq_comm]

/-- A node is handed back exactly if its name is taken, and then unchanged. -/
theorem push_eq_error_iff {s : Schema} {node other : Node} :
    s.push node = .error other ↔ node.name ∈ s.names ∧ other = node := by
  unfold push
  split
  · next h => simp [contains_iff.mp h, eq_comm]
  · next h =>
    rw [contains_iff] at h
    simp [h]

theorem nodes_of_push {s t : Schema} {node : Node} (h : s.push node = .ok t) :
    t.nodes = s.nodes ++ [node] := by
  obtain ⟨-, rfl⟩ := push_eq_ok_iff.mp h
  simp [nodes]

theorem names_of_push {s t : Schema} {node : Node} (h : s.push node = .ok t) :
    t.names = s.names ++ [node.name] := by
  obtain ⟨-, rfl⟩ := push_eq_ok_iff.mp h
  simp [names]

end Schema

end NodeSchema
