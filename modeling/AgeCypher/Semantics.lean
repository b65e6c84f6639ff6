import AgeCypher.JoinQuals
/-!
# What the join quals of a path mean on a graph

A row of the compiled relation holds one tuple per range-table entry of the
pattern: a vertex tuple for each join-tree vertex, an edge tuple for each edge.
The quals of `make_path_join_quals` and `prevent_duplicate_edges` are evaluated
on such a row. A match of a path assigns a graph vertex to every vertex element
and a graph edge to every edge element, each edge joining its neighbours in its
direction, the edges pairwise distinct.

A vertex id carries its label (`_extract_label_id` reads it from the graphid);
here the label of an id is the label of the vertex with that id.
-/

namespace AgeCypher

/-- A vertex of the graph. -/
structure Vertex where
  id : Nat
  label : String
  deriving DecidableEq, Repr

/-- An edge of the graph. -/
structure Edge where
  id : Nat
  label : String
  startId : Nat
  endId : Nat
  deriving DecidableEq, Repr

/-- A property graph. -/
structure Graph where
  vertices : List Vertex
  edges : List Edge
  deriving DecidableEq, Repr

/-- The label a graph id carries. -/
def Graph.labelOfId (g : Graph) (id : Nat) : Option String :=
  (g.vertices.find? fun v => v.id == id).map Vertex.label

/-- The tuple a row holds for one range-table entry of the pattern. -/
inductive Binding where
  | vertex (v : Vertex)
  | edge (e : Edge)
  deriving DecidableEq, Repr

/-- A row of the joined relations: the tuple of each entity's relation, by the
entity's identity; entities left out of the join tree have none. -/
def Row := Nat → Option Binding

/-- The value of a column of a row. -/
def Field.eval (row : Row) (f : Field) : Option Nat :=
  match row f.entity.id, f.col with
  | some (.vertex v), .id => some v.id
  | some (.edge e), .id => some e.id
  | some (.edge e), .startId => some e.startId
  | some (.edge e), .endId => some e.endId
  | _, _ => none

/-- An atom on a row; a comparison with a missing value is not true. -/
def JoinAtom.eval (g : Graph) (row : Row) : JoinAtom → Bool
  | .eq l r =>
    match l.eval row, r.eval row with
    | some a, some b => a == b
    | _, _ => false
  | .isIn l rs =>
    match l.eval row with
    | some a => rs.any fun r => r.eval row == some a
    | none => false
  | .labelFilter f label =>
    match f.eval row with
    | some i => g.labelOfId i == some label
    | none => false

/-- A qual on a row; `_property_constraint_check` is given by `propCheck`. -/
def Qual.eval (g : Graph) (row : Row) (propCheck : TransformEntity → CypherProps → Bool) :
    Qual → Bool
  | .atom a => a.eval g row
  | .orAnd first second => first.all (·.eval g row) || second.all (·.eval g row)
  | .edgeUniqueness ids => decide (ids.map (·.eval row)).Nodup
  | .propertyConstraint e p => propCheck e p

/-- Edge `e` joins `a` to `b` in direction `dir`; `NONE` accepts both ways. -/
def edgeJoins (dir : CypherRelDir) (e : Edge) (a b : Vertex) : Bool :=
  match dir with
  | .right => e.startId == a.id && e.endId == b.id
  | .left => e.startId == b.id && e.endId == a.id
  | .none => (e.startId == a.id && e.endId == b.id) || (e.startId == b.id && e.endId == a.id)

/-- A graph vertex fits a vertex element: any vertex for no label or the
default label, else one of that label. -/
def vertexAdmits (n : CypherNode) (v : Vertex) : Bool :=
  match n.label with
  | some l => l == agDefaultLabelVertex || v.label == l
  | none => true

/-- A graph edge fits an edge element, as `vertexAdmits`. -/
def edgeAdmits (r : CypherRelationship) (e : Edge) : Bool :=
  match r.label with
  | some l => l == agDefaultLabelEdge || e.label == l
  | none => true

/-- Walking `v₀ (e₀ v₁) …`, every edge joins its two neighbours in the direction
of its element. -/
def walkJoins : Vertex → List (CypherRelationship × Edge × Vertex) → Bool
  | _, [] => true
  | a, (r, e, b) :: rest => edgeJoins r.dir e a b && walkJoins b rest

/-- A match of the path with elements `n₀ (r₀ n₁) …` (no property maps): a graph
vertex for every vertex element and a graph edge for every edge element, each
fitting its element, each edge joining its neighbours, no edge used twice. -/
def IsPathMatch (g : Graph) (n₀ : CypherNode) (pattern : List (CypherRelationship × CypherNode))
    (v₀ : Vertex) (steps : List (Edge × Vertex)) : Prop :=
  steps.length = pattern.length ∧ v₀ ∈ g.vertices ∧ vertexAdmits n₀ v₀ ∧
    (∀ s ∈ pattern.zip steps, s.2.1 ∈ g.edges ∧ edgeAdmits s.1.1 s.2.1 ∧
      s.2.2 ∈ g.vertices ∧ vertexAdmits s.1.2 s.2.2) ∧
    walkJoins v₀ ((pattern.map Prod.fst).zip steps) ∧ (steps.map fun s => s.1.id).Nodup

/-- The graph elements a match assigns to the elements of its path, in path
order: `v₀ e₀ v₁ e₁ …`. -/
def matchBindings (v₀ : Vertex) (steps : List (Edge × Vertex)) : List Binding :=
  .vertex v₀ :: steps.flatMap fun st => [.edge st.1, .vertex st.2]

/-- A row agrees with a match when every element of the path that the row binds
holds the graph element the match assigns it. -/
def RowAgrees (row : Row) (entities : List TransformEntity) (v₀ : Vertex)
    (steps : List (Edge × Vertex)) : Prop :=
  ∀ p ∈ entities.zip (matchBindings v₀ steps), ∀ b, row p.1.id = some b → b = p.2

end AgeCypher
