import AgeCypher.Semantics
import Mathlib.Data.List.Nodup
/-!
# What the join quals of a path say

`make_path_join_quals` ties every edge of a path to its neighbours, one window
`[prev_edge]-(prev_node)-[edge]-(next_node)-[next_edge]` at a time, and
`transform_match_path` adds the `prevent_duplicate_edges` call once the path has
two edges. Here both are read on a row of the path's relations, over a graph
whose vertex ids are distinct and whose edges join vertices of the graph:

* what the quals of one window say (`makeJoinConditionForEdge_directed_iff`,
  `makeJoinConditionForEdge_undirected_iff`);
* the quals never reject a row that holds a match, whatever the directions
  (`pathWindows_complete`);
* when every edge is directed, a row that satisfies them holds a match
  (`pathWindows_sound`). The vertices left out of the join tree are then the
  ones the edges meet, found by their ids.
-/

namespace AgeCypher

/-! ## Graphs and rows -/

/-- A graph whose vertex ids are distinct and whose edges join vertices of the graph. -/
structure Graph.WellFormed (g : Graph) : Prop where
  ids_nodup : (g.vertices.map Vertex.id).Nodup
  ends : ∀ E ∈ g.edges, (∃ V ∈ g.vertices, V.id = E.startId) ∧ ∃ V ∈ g.vertices, V.id = E.endId

/-- The endpoint an edge leaves from, walked in direction `dir`. -/
def Edge.tail (E : Edge) : CypherRelDir → Nat
  | .left => E.endId
  | _ => E.startId

/-- The endpoint an edge arrives at, walked in direction `dir`. -/
def Edge.head (E : Edge) : CypherRelDir → Nat
  | .left => E.startId
  | _ => E.endId

/-- `x`'s expression is not a label relation of its own (`make_vertex_expr`,
`make_edge_expr`) but a column of an earlier clause, which `transform_cypher_node`
and `transform_cypher_edge` return without testing the element's label. -/
def TransformEntity.readsColumn (x : TransformEntity) : Bool :=
  match x.expr with
  | some (.vertex _) | some (.edge _) | none => false
  | some _ => true

/-- The default label of an entity's kind. -/
def TransformEntity.defaultLabel (x : TransformEntity) : String :=
  match x.entity with
  | .node _ => agDefaultLabelVertex
  | .rel _ => agDefaultLabelEdge

/-- A tuple of an entity's relation: a vertex (an edge) of the graph for a vertex
(an edge) element, which the element admits unless the entity reads a column. -/
def Fits (g : Graph) (x : TransformEntity) : Binding → Prop
  | .vertex V => ∃ n, x.entity = .node n ∧ V ∈ g.vertices ∧
      (x.readsColumn = false → vertexAdmits n V = true)
  | .edge E => ∃ r, x.entity = .rel r ∧ E ∈ g.edges ∧
      (x.readsColumn = false → edgeAdmits r E = true)

/-- A row of the relations of a path: every entity in the join tree holds a tuple
of its relation. -/
def RowOfRelations (g : Graph) (entities : List TransformEntity) (row : Row) : Prop :=
  ∀ x ∈ entities, x.inJoinTree = true → ∃ b, row x.id = some b ∧ Fits g x b

/-- Every entity that reads a column carries the default label of its kind, so
that the label test the code skips for it has nothing to reject. -/
def ColumnsUnlabelled (entities : List TransformEntity) : Prop :=
  ∀ x ∈ entities, x.readsColumn = true → x.label = some x.defaultLabel

/-- A tuple its element admits. -/
def Admits (g : Graph) (x : TransformEntity) : Binding → Prop
  | .vertex V => ∃ n, x.entity = .node n ∧ V ∈ g.vertices ∧ vertexAdmits n V = true
  | .edge E => ∃ r, x.entity = .rel r ∧ E ∈ g.edges ∧ edgeAdmits r E = true

/-- A row in which every entity in the join tree holds a tuple its element admits. -/
def RowAdmitted (g : Graph) (entities : List TransformEntity) (row : Row) : Prop :=
  ∀ x ∈ entities, x.inJoinTree = true → ∃ b, row x.id = some b ∧ Admits g x b

/-- The `(edge, vertex)` steps of a path's entities carry the elements of a pattern. -/
def CarriesSteps : List (TransformEntity × TransformEntity) →
    List (CypherRelationship × CypherNode) → Prop
  | [], [] => True
  | (e, v) :: steps, (r, m) :: pattern =>
    e.entity = .rel r ∧ v.entity = .node m ∧ CarriesSteps steps pattern
  | _, _ => False

/-- The row holds the graph elements of the match steps for the entities of the
path steps that are in the join tree. -/
def RowOfSteps (row : Row) : List (TransformEntity × TransformEntity) → List (Edge × Vertex) → Prop
  | [], [] => True
  | (e, v) :: steps, (E, V) :: ss =>
    (e.inJoinTree = true → row e.id = some (.edge E)) ∧
      (v.inJoinTree = true → row v.id = some (.vertex V)) ∧ RowOfSteps row steps ss
  | _, _ => False

/-- The row holds the match `V₀ ss` on the path `v₀ steps`. -/
def RowOfMatch (row : Row) (v₀ : TransformEntity) (steps : List (TransformEntity × TransformEntity))
    (V₀ : Vertex) (ss : List (Edge × Vertex)) : Prop :=
  (v₀.inJoinTree = true → row v₀.id = some (.vertex V₀)) ∧ RowOfSteps row steps ss

/-- The label test of a vertex left out of the join tree passes at the id `t`: a
label other than the default one is the label of the vertex with that id. -/
def LabelHolds (g : Graph) (label : Option String) (t : Nat) : Prop :=
  ∀ l ∈ label, isDefaultLabelVertex label = false → g.labelOfId t = some l

/-- From vertex `a`, each graph edge fits its element and joins its neighbours in
the element's direction, and each graph vertex fits its element. -/
def StepsWalk (g : Graph) : Vertex → List (CypherRelationship × CypherNode) →
    List (Edge × Vertex) → Prop
  | _, [], [] => True
  | a, (r, n) :: pattern, (E, b) :: ss =>
    E ∈ g.edges ∧ edgeAdmits r E = true ∧ b ∈ g.vertices ∧ vertexAdmits n b = true ∧
      edgeJoins r.dir E a b = true ∧ StepsWalk g b pattern ss
  | _, _, _ => False

@[simp] theorem labelHolds_none (g : Graph) (t : Nat) : LabelHolds g none t := by
  simp [LabelHolds]

@[simp] theorem TransformEntity.label_of_node {x : TransformEntity} {n : CypherNode}
    (h : x.entity = .node n) : x.label = n.label := by
  simp [TransformEntity.label, h]

section Graph

variable {g : Graph} (hg : g.WellFormed)
include hg

theorem Graph.WellFormed.eq_of_id {V W : Vertex} (hV : V ∈ g.vertices) (hW : W ∈ g.vertices)
    (h : V.id = W.id) : V = W :=
  List.inj_on_of_nodup_map hg.ids_nodup hV hW h

theorem Graph.WellFormed.labelOfId {V : Vertex} (hV : V ∈ g.vertices) :
    g.labelOfId V.id = some V.label := by
  obtain ⟨W, hW⟩ : ∃ W, g.vertices.find? (fun v => v.id == V.id) = some W :=
    Option.isSome_iff_exists.mp (List.find?_isSome.mpr ⟨V, hV, by simp⟩)
  have hWV : W = V := hg.eq_of_id (List.mem_of_find?_eq_some hW) hV
    (by simpa using List.find?_some hW)
  simp [Graph.labelOfId, hW, hWV]

theorem Graph.WellFormed.labelHolds_iff {V : Vertex} (hV : V ∈ g.vertices) (n : CypherNode) :
    LabelHolds g n.label V.id ↔ vertexAdmits n V = true := by
  rcases hn : n.label with _ | l
  · simp [vertexAdmits, hn]
  · by_cases hl : l = agDefaultLabelVertex <;>
      simp [vertexAdmits, LabelHolds, hn, hl, isDefaultLabelVertex, hg.labelOfId hV]

theorem Graph.WellFormed.exists_tail {E : Edge} (hE : E ∈ g.edges) (d : CypherRelDir) :
    ∃ V ∈ g.vertices, V.id = E.tail d := by
  cases d <;> simp only [Edge.tail] <;> first | exact (hg.ends E hE).1 | exact (hg.ends E hE).2

theorem Graph.WellFormed.exists_head {E : Edge} (hE : E ∈ g.edges) (d : CypherRelDir) :
    ∃ V ∈ g.vertices, V.id = E.head d := by
  cases d <;> simp only [Edge.head] <;> first | exact (hg.ends E hE).2 | exact (hg.ends E hE).1

end Graph

theorem Fits.admits {g : Graph} {x : TransformEntity} {b : Binding} (h : Fits g x b)
    (hl : x.readsColumn = true → x.label = some x.defaultLabel) : Admits g x b := by
  cases b with
  | vertex V =>
    obtain ⟨n, hn, hV, hadm⟩ := h
    refine ⟨n, hn, hV, ?_⟩
    cases hc : x.readsColumn
    · exact hadm hc
    · have hlabel := hl hc
      simp only [TransformEntity.label, TransformEntity.defaultLabel, hn] at hlabel
      simp [vertexAdmits, hlabel]
  | edge E =>
    obtain ⟨r, hr, hE, hadm⟩ := h
    refine ⟨r, hr, hE, ?_⟩
    cases hc : x.readsColumn
    · exact hadm hc
    · have hlabel := hl hc
      simp only [TransformEntity.label, TransformEntity.defaultLabel, hr] at hlabel
      simp [edgeAdmits, hlabel]

/-- On entities that read columns only under the default label, a row of their
relations holds tuples their elements admit. -/
theorem RowOfRelations.admitted {g : Graph} {es : List TransformEntity} {row : Row}
    (hrow : RowOfRelations g es row) (hl : ColumnsUnlabelled es) : RowAdmitted g es row :=
  fun x hx hj =>
    let ⟨b, hb, hfit⟩ := hrow x hx hj
    ⟨b, hb, hfit.admits (hl x hx)⟩

theorem Admits.rel {g : Graph} {x : TransformEntity} {r : CypherRelationship} {b : Binding}
    (hx : x.entity = .rel r) (h : Admits g x b) :
    ∃ E, b = .edge E ∧ E ∈ g.edges ∧ edgeAdmits r E = true := by
  cases b with
  | vertex V => obtain ⟨n, hn, -⟩ := h; cases hx ▸ hn
  | edge E => obtain ⟨r', hr', hE⟩ := h; cases hx ▸ hr'; exact ⟨E, rfl, hE⟩

theorem Admits.node {g : Graph} {x : TransformEntity} {n : CypherNode} {b : Binding}
    (hx : x.entity = .node n) (h : Admits g x b) :
    ∃ V, b = .vertex V ∧ V ∈ g.vertices ∧ vertexAdmits n V = true := by
  cases b with
  | vertex V => obtain ⟨n', hn', hV⟩ := h; cases hx ▸ hn'; exact ⟨V, rfl, hV⟩
  | edge E => obtain ⟨r, hr, -⟩ := h; cases hx ▸ hr

theorem edgeJoins_directed_iff {d : CypherRelDir} (hd : d ≠ .none) {E : Edge} {a b : Vertex} :
    edgeJoins d E a b = true ↔ E.tail d = a.id ∧ E.head d = b.id := by
  cases d
  · exact absurd rfl hd
  · simp [edgeJoins, Edge.tail, Edge.head, and_comm]
  · simp [edgeJoins, Edge.tail, Edge.head]

/-- `IsPathMatch` walked step by step. -/
theorem isPathMatch_iff {g : Graph} {n₀ : CypherNode} {pattern} {V₀ : Vertex}
    {ss : List (Edge × Vertex)} :
    IsPathMatch g n₀ pattern V₀ ss ↔ V₀ ∈ g.vertices ∧ vertexAdmits n₀ V₀ = true ∧
      StepsWalk g V₀ pattern ss ∧ (ss.map fun s => s.1.id).Nodup := by
  suffices h : ∀ a, StepsWalk g a pattern ss ↔ ss.length = pattern.length ∧
      (∀ s ∈ pattern.zip ss, s.2.1 ∈ g.edges ∧ edgeAdmits s.1.1 s.2.1 ∧ s.2.2 ∈ g.vertices ∧
        vertexAdmits s.1.2 s.2.2) ∧ walkJoins a ((pattern.map Prod.fst).zip ss) by
    simp only [IsPathMatch, h]
    tauto
  induction pattern generalizing ss with
  | nil => intro a; cases ss <;> simp [StepsWalk, walkJoins]
  | cons p pattern ih =>
    intro a
    rcases ss with _ | ⟨⟨E, b⟩, ss⟩
    · simp [StepsWalk]
    · simp only [StepsWalk, ih, List.length_cons, List.zip_cons_cons, List.forall_mem_cons,
        List.map_cons, walkJoins, Bool.and_eq_true, Nat.add_right_cancel_iff]
      tauto

/-! ## One window -/

/-- The fields `join_to_entity` compares a qual with: the id of a vertex, or the
endpoint(s) `make_edge_quals` offers from an edge. -/
def TransformEntity.joinFields (x : TransformEntity) (side : JoinSide) : List Field :=
  match x.entity with
  | .node _ => [⟨x, .id⟩]
  | .rel r =>
    match makeEdgeQuals x r.dir side with
    | (f, none) => [f]
    | (f, some f') => [f, f']

/-- Met from `side`, the entity `x` reaches the vertex id `t` on the row. -/
def TransformEntity.Reaches (row : Row) (x : TransformEntity) (side : JoinSide) (t : Nat) : Prop :=
  ∃ f ∈ x.joinFields side, f.eval row = some t

/-- The entity before an edge that its window joins it to (`prev_entity`). -/
def windowPrev (prevEdge : Option TransformEntity) (prevNode : TransformEntity) : TransformEntity :=
  if prevNode.inJoinTree then prevNode else prevEdge.getD prevNode

/-- The entity after an undirected edge that its window joins it to (`next_entity`). -/
def windowNext (nextNode : TransformEntity) (nextEdge : Option TransformEntity) : TransformEntity :=
  if nextNode.inJoinTree then nextNode else nextEdge.getD nextNode

/-- The label the window tests on the edge's first endpoint (`prev_label_name_to_filter`). -/
def windowPrevLabel (prevNode : TransformEntity) : Option String :=
  if prevNode.inJoinTree then none else prevNode.label

/-- The label the window tests on the edge's second endpoint (`next_label_name_to_filter`). -/
def windowNextLabel (nextNode : TransformEntity) (nextEdge : Option TransformEntity) :
    Option String :=
  if !nextNode.inJoinTree && nextEdge.isNone then nextNode.label else none

/-- What the atoms of `make_directed_edge_join_conditions` say when the current
edge's two fields hold `a` and `b`: the previous entity reaches `a`, the next one
`b`, and both label tests pass. -/
def WindowMeets (g : Graph) (row : Row) (prev next : TransformEntity)
    (prevLabel nextLabel : Option String) (a b : Nat) : Prop :=
  (prev.inJoinTree = true → prev.Reaches row .left a) ∧
    (next.inJoinTree = true → next.Reaches row .right b) ∧
    LabelHolds g prevLabel a ∧ LabelHolds g nextLabel b

@[simp] theorem windowPrev_none (prevNode : TransformEntity) : windowPrev none prevNode = prevNode := by
  by_cases h : prevNode.inJoinTree <;> simp [windowPrev, h]

@[simp] theorem windowNextLabel_none (nextNode : TransformEntity) :
    windowNextLabel nextNode none = windowPrevLabel nextNode := by
  by_cases h : nextNode.inJoinTree <;> simp [windowNextLabel, windowPrevLabel, h]

@[simp] theorem windowNextLabel_some (nextNode e : TransformEntity) :
    windowNextLabel nextNode (some e) = none := by
  simp [windowNextLabel]

theorem labelHolds_windowPrevLabel {g : Graph} {x : TransformEntity} {t : Nat}
    (h : LabelHolds g x.label t) : LabelHolds g (windowPrevLabel x) t := by
  unfold windowPrevLabel
  split <;> simp [h]

section Row

variable {g : Graph} {row : Row} {pc : TransformEntity → CypherProps → Bool}

theorem Field.eval_edge {x : TransformEntity} {E : Edge} (h : row x.id = some (.edge E)) :
    Field.eval row ⟨x, .startId⟩ = some E.startId ∧ Field.eval row ⟨x, .endId⟩ = some E.endId := by
  simp [Field.eval, h]

theorem TransformEntity.reaches_node {x : TransformEntity} {n : CypherNode} {side : JoinSide}
    {t : Nat} (hx : x.entity = .node n) : x.Reaches row side t ↔ Field.eval row ⟨x, .id⟩ = some t := by
  simp [TransformEntity.Reaches, TransformEntity.joinFields, hx]

/-- A directed edge reached from the edge after it: at its head. -/
theorem TransformEntity.reaches_left_directed {e : TransformEntity} {r : CypherRelationship}
    {E : Edge} {t : Nat} (he : e.entity = .rel r) (hd : r.dir ≠ .none)
    (hE : row e.id = some (.edge E)) : e.Reaches row .left t ↔ E.head r.dir = t := by
  obtain ⟨hs, hn⟩ := Field.eval_edge hE
  simp only [TransformEntity.Reaches, TransformEntity.joinFields, he, makeEdgeQuals]
  cases hdir : r.dir
  · exact absurd hdir hd
  all_goals simp only [List.mem_singleton, exists_eq_left, hs, hn, Option.some.injEq, Edge.head]

/-- An edge joining `a` to `b` is reached at `b` from the edge after it and at `a`
from the edge before it, whatever its direction. -/
theorem TransformEntity.reaches_of_edgeJoins {e : TransformEntity} {r : CypherRelationship}
    {E : Edge} {a b : Vertex} (he : e.entity = .rel r) (hE : row e.id = some (.edge E))
    (h : edgeJoins r.dir E a b = true) : e.Reaches row .left b.id ∧ e.Reaches row .right a.id := by
  obtain ⟨hs, hn⟩ := Field.eval_edge hE
  simp only [TransformEntity.Reaches, TransformEntity.joinFields, he, makeEdgeQuals]
  cases hdir : r.dir <;> simp only [edgeJoins, hdir, Bool.and_eq_true, Bool.or_eq_true,
    beq_iff_eq] at h <;> simp only [List.mem_cons, List.mem_singleton, List.not_mem_nil, or_false,
      exists_eq_or_imp, exists_eq_left, hs, hn, Option.some.injEq]
  · rcases h with ⟨h₁, h₂⟩ | ⟨h₁, h₂⟩ <;> simp [h₁, h₂]
  all_goals simp [h.1, h.2]

theorem JoinAtom.eval_eq_iff {q f : Field} {t : Nat} (hq : q.eval row = some t) :
    (JoinAtom.eq q f).eval g row = true ↔ f.eval row = some t := by
  simp only [JoinAtom.eval, hq]
  cases f.eval row <;> simp [@eq_comm _ t]

theorem JoinAtom.eval_isIn_iff {q : Field} {fs : List Field} {t : Nat} (hq : q.eval row = some t) :
    (JoinAtom.isIn q fs).eval g row = true ↔ ∃ f ∈ fs, f.eval row = some t := by
  simp [JoinAtom.eval, hq]

theorem joinToEntity_eval {q : Field} {t : Nat} (hq : q.eval row = some t) (x : TransformEntity)
    (side : JoinSide) :
    (∀ a ∈ joinToEntity x q side, a.eval g row = true) ↔ x.Reaches row side t := by
  rcases hx : x.entity with n | r
  · simp [joinToEntity, TransformEntity.Reaches, TransformEntity.joinFields, hx,
      JoinAtom.eval_eq_iff hq]
  · rcases hm : makeEdgeQuals x r.dir side with ⟨f, _ | f'⟩ <;>
      simp [joinToEntity, TransformEntity.Reaches, TransformEntity.joinFields, hx, hm,
        JoinAtom.eval_eq_iff hq, JoinAtom.eval_isIn_iff hq]

theorem labelFilterQuals_eval {q : Field} {t : Nat} (hq : q.eval row = some t)
    (label : Option String) :
    (∀ a ∈ labelFilterQuals q label, a.eval g row = true) ↔ LabelHolds g label t := by
  rcases label with _ | l
  · simp [labelFilterQuals]
  · by_cases hl : isDefaultLabelVertex (some l) <;>
      simp [labelFilterQuals, LabelHolds, hl, JoinAtom.eval, hq]

theorem makeDirectedEdgeJoinConditions_eval {prev next : TransformEntity} {q₁ q₂ : Field}
    {a b : Nat} (h₁ : q₁.eval row = some a) (h₂ : q₂.eval row = some b) (pl nl : Option String) :
    (∀ x ∈ makeDirectedEdgeJoinConditions prev next q₁ q₂ pl nl, x.eval g row = true) ↔
      WindowMeets g row prev next pl nl a b := by
  simp only [makeDirectedEdgeJoinConditions, List.mem_append, or_imp, forall_and,
    labelFilterQuals_eval h₁, labelFilterQuals_eval h₂, WindowMeets, and_assoc]
  cases prev.inJoinTree <;> cases next.inJoinTree <;>
    simp [joinToEntity_eval h₁, joinToEntity_eval h₂]

/-- The window of a directed edge joins it to the previous entity at its tail and
to the next node at its head. -/
theorem makeJoinConditionForEdge_directed_iff {pe ne : Option TransformEntity}
    {pn e v : TransformEntity} {r : CypherRelationship} {E : Edge} (he : e.entity = .rel r)
    (hd : r.dir ≠ .none) (hE : row e.id = some (.edge E)) :
    (∀ q ∈ makeJoinConditionForEdge pe pn e v ne, q.eval g row pc = true) ↔
      WindowMeets g row (windowPrev pe pn) v (windowPrevLabel pn) (windowNextLabel v ne)
        (E.tail r.dir) (E.head r.dir) := by
  obtain ⟨hs, hn⟩ := Field.eval_edge hE
  cases hdir : r.dir with
  | none => exact absurd hdir hd
  | left =>
    simp only [makeJoinConditionForEdge, he, hdir, List.forall_mem_map, Qual.eval]
    exact makeDirectedEdgeJoinConditions_eval hn hs _ _
  | right =>
    simp only [makeJoinConditionForEdge, he, hdir, List.forall_mem_map, Qual.eval]
    exact makeDirectedEdgeJoinConditions_eval hs hn _ _

/-- The window of an undirected edge: one of its two orientations joins it to
the previous and the next entity. -/
theorem makeJoinConditionForEdge_undirected_iff {pe ne : Option TransformEntity}
    {pn e v : TransformEntity} {r : CypherRelationship} {E : Edge} (he : e.entity = .rel r)
    (hd : r.dir = .none) (hE : row e.id = some (.edge E)) :
    (∀ q ∈ makeJoinConditionForEdge pe pn e v ne, q.eval g row pc = true) ↔
      WindowMeets g row (windowPrev pe pn) (windowNext v ne) (windowPrevLabel pn)
          (windowNextLabel v ne) E.startId E.endId ∨
        WindowMeets g row (windowPrev pe pn) (windowNext v ne) (windowPrevLabel pn)
          (windowNextLabel v ne) E.endId E.startId := by
  obtain ⟨hs, hn⟩ := Field.eval_edge hE
  simp only [makeJoinConditionForEdge, he, hd, List.forall_mem_singleton, Qual.eval,
    Bool.or_eq_true, List.all_eq_true]
  rw [makeDirectedEdgeJoinConditions_eval hs hn, makeDirectedEdgeJoinConditions_eval hn hs]
  rfl

end Row

/-! ## The path -/

section Path

variable {g : Graph} {row : Row} {pc : TransformEntity → CypherProps → Bool}

/-- A vertex entity at the id `t`: the vertex its relation holds, or, left out of
the join tree, the vertex of the graph with that id, which its label test admits. -/
theorem exists_vertex (hg : g.WellFormed) {x : TransformEntity} {n : CypherNode} {t : Nat}
    (hx : x.entity = .node n) (hrow : x.inJoinTree = true → ∃ b, row x.id = some b ∧ Admits g x b)
    (hex : ∃ V ∈ g.vertices, V.id = t) (hid : x.inJoinTree = true → Field.eval row ⟨x, .id⟩ = some t)
    (hlab : LabelHolds g (windowPrevLabel x) t) :
    ∃ V ∈ g.vertices, V.id = t ∧ vertexAdmits n V = true ∧
      (x.inJoinTree = true → row x.id = some (.vertex V)) := by
  by_cases hj : x.inJoinTree
  · obtain ⟨b, hb, hfit⟩ := hrow hj
    obtain ⟨V, rfl, hV, hadm⟩ := hfit.node hx
    exact ⟨V, hV, by simpa [Field.eval, hb] using hid hj, hadm, fun _ => hb⟩
  · obtain ⟨V, hV, rfl⟩ := hex
    simp only [windowPrevLabel, hj, if_false, Bool.false_eq_true, TransformEntity.label_of_node hx]
      at hlab
    exact ⟨V, hV, rfl, (hg.labelHolds_iff hV n).mp hlab, fun h => absurd h hj⟩

/-- The window of an edge holds on a row that holds a match around it: the
previous entity reaches the edge's first vertex, the next node or edge its
second, and both vertices carry the labels their elements ask for. -/
theorem makeJoinConditionForEdge_of_match {pe ne : Option TransformEntity}
    {pn e v : TransformEntity} {r : CypherRelationship} {E : Edge} {V V' : Vertex}
    (he : e.entity = .rel r) (hE : row e.id = some (.edge E))
    (hjoin : edgeJoins r.dir E V V' = true)
    (hprev : (windowPrev pe pn).inJoinTree = true → (windowPrev pe pn).Reaches row .left V.id)
    (hv : v.inJoinTree = true → v.Reaches row .right V'.id)
    (hne : ∀ x ∈ ne, x.inJoinTree = true → x.Reaches row .right V'.id)
    (hlab : LabelHolds g pn.label V.id) (hlab' : LabelHolds g v.label V'.id) :
    ∀ q ∈ makeJoinConditionForEdge pe pn e v ne, q.eval g row pc = true := by
  have hP := labelHolds_windowPrevLabel hlab
  have hN : LabelHolds g (windowNextLabel v ne) V'.id := by
    unfold windowNextLabel
    split <;> simp [hlab']
  have hnext : (windowNext v ne).inJoinTree = true →
      (windowNext v ne).Reaches row .right V'.id := by
    unfold windowNext
    split
    · exact fun _ => hv ‹_›
    · cases ne with
      | none => simpa using hv
      | some x => exact hne x rfl
  by_cases hd : r.dir = .none
  · rw [makeJoinConditionForEdge_undirected_iff he hd hE]
    simp only [hd, edgeJoins, Bool.or_eq_true, Bool.and_eq_true, beq_iff_eq] at hjoin
    rcases hjoin with ⟨h₁, h₂⟩ | ⟨h₁, h₂⟩
    · left
      rw [h₁, h₂]
      exact ⟨hprev, hnext, hP, hN⟩
    · right
      rw [h₁, h₂]
      exact ⟨hprev, hnext, hP, hN⟩
  · rw [makeJoinConditionForEdge_directed_iff he hd hE]
    obtain ⟨h₁, h₂⟩ := (edgeJoins_directed_iff hd).mp hjoin
    rw [h₁, h₂]
    exact ⟨hprev, hv, hP, hN⟩

/-- Every window of a path holds on a row that holds a walk along it, whatever
the directions of its edges. -/
theorem pathWindows_complete (hg : g.WellFormed) {pe : Option TransformEntity}
    {pn : TransformEntity} {steps : List (TransformEntity × TransformEntity)} {pattern}
    {V : Vertex} {ss : List (Edge × Vertex)} (hc : CarriesSteps steps pattern)
    (hedges : ∀ s ∈ steps, s.1.inJoinTree = true)
    (hprev : (windowPrev pe pn).inJoinTree = true → (windowPrev pe pn).Reaches row .left V.id)
    (hlab : LabelHolds g pn.label V.id) (hwalk : StepsWalk g V pattern ss)
    (hrow : RowOfSteps row steps ss) :
    ∀ q ∈ pathWindows pe pn steps, q.eval g row pc = true := by
  induction steps generalizing pe pn pattern V ss with
  | nil => simp [pathWindows]
  | cons s steps ih =>
    obtain ⟨e, v⟩ := s
    rcases pattern with _ | ⟨⟨r, m⟩, pattern⟩
    · exact hc.elim
    rcases ss with _ | ⟨⟨E, V'⟩, ss⟩
    · exact hwalk.elim
    obtain ⟨he, hv, hc⟩ := hc
    obtain ⟨-, -, hV', hadm, hjoin, hwalk⟩ := hwalk
    obtain ⟨hrowe, hrowv, hrow⟩ := hrow
    have heJ := hedges _ (List.mem_cons_self _ _)
    have hE := hrowe heJ
    have hlab' : LabelHolds g v.label V'.id := by
      rw [TransformEntity.label_of_node hv]
      exact (hg.labelHolds_iff hV' m).mpr hadm
    have hvr : ∀ side, v.inJoinTree = true → v.Reaches row side V'.id := fun _ h =>
      (TransformEntity.reaches_node hv).mpr (by simp [Field.eval, hrowv h])
    -- the next edge, if any, starts where this one ends
    have hne : ∀ x ∈ steps.head?.map Prod.fst, x.inJoinTree = true → x.Reaches row .right V'.id := by
      rcases steps with _ | ⟨⟨e', v'⟩, steps⟩
      · simp
      rcases pattern with _ | ⟨⟨r', m'⟩, pattern⟩
      · exact hc.elim
      rcases ss with _ | ⟨⟨E', V''⟩, ss⟩
      · exact hwalk.elim
      simp only [List.head?_cons, Option.map_some', Option.mem_def, Option.some.injEq, forall_eq']
      exact fun hj => (TransformEntity.reaches_of_edgeJoins hc.1 (hrow.1 hj) hwalk.2.2.2.2.1).2
    -- the next window starts where this edge ends
    have hprev' : (windowPrev (some e) v).inJoinTree = true →
        (windowPrev (some e) v).Reaches row .left V'.id := by
      by_cases hvj : v.inJoinTree
      · simpa [windowPrev, hvj] using hvr .left hvj
      · simpa [windowPrev, hvj, heJ] using (TransformEntity.reaches_of_edgeJoins he hE hjoin).1
    rw [pathWindows, List.forall_mem_append]
    exact ⟨makeJoinConditionForEdge_of_match he hE hjoin hprev (hvr _) hne hlab hlab',
      ih hc (fun s hs => hedges s (List.mem_cons_of_mem _ hs)) hprev' hlab' hwalk hrow⟩

/-- A directed edge in front of a walk: the window says where the edge starts,
the windows after it where it ends. -/
theorem stepsWalk_cons_of_window (hg : g.WellFormed) {e v : TransformEntity}
    {r : CypherRelationship} {m : CypherNode} {E : Edge} {t' : Nat} {pattern}
    {steps : List (TransformEntity × TransformEntity)} {ss : List (Edge × Vertex)}
    (hv : v.entity = .node m) (hd : r.dir ≠ .none) (hE : row e.id = some (.edge E))
    (hEmem : E ∈ g.edges) (hEadm : edgeAdmits r E = true)
    (hvrow : v.inJoinTree = true → ∃ b, row v.id = some b ∧ Admits g v b)
    (hhead : E.head r.dir = t') (hex : ∃ V ∈ g.vertices, V.id = t')
    (hvid : v.inJoinTree = true → Field.eval row ⟨v, .id⟩ = some t')
    (hlab : LabelHolds g (windowPrevLabel v) t')
    (hwalk : ∀ V, V.id = t' → StepsWalk g V pattern ss) (hrow : RowOfSteps row steps ss) :
    ∃ V' : Vertex, (∀ V, V.id = E.tail r.dir → StepsWalk g V ((r, m) :: pattern) ((E, V') :: ss)) ∧
      RowOfSteps row ((e, v) :: steps) ((E, V') :: ss) := by
  obtain ⟨V', hV', hid, hadm, hrowv⟩ := exists_vertex hg hv hvrow hex hvid hlab
  exact ⟨V', fun V hV => ⟨hEmem, hEadm, hV', hadm,
    (edgeJoins_directed_iff hd).mpr ⟨hV.symm, hhead.trans hid.symm⟩, hwalk V' hid⟩,
    fun _ => hE, hrowv, hrow⟩

/-- A row of the relations of a directed path on which its windows hold holds a
walk along the path, from the vertex that the first window ties to the first edge. -/
theorem pathWindows_sound (hg : g.WellFormed) {pe : Option TransformEntity}
    {pn e v : TransformEntity} {steps : List (TransformEntity × TransformEntity)}
    {r : CypherRelationship} {m : CypherNode} {pattern}
    (hc : CarriesSteps ((e, v) :: steps) ((r, m) :: pattern))
    (hdir : ∀ p ∈ (r, m) :: pattern, p.1.dir ≠ .none)
    (hedges : ∀ s ∈ (e, v) :: steps, s.1.inJoinTree = true)
    (hrow : RowAdmitted g (flattenSteps ((e, v) :: steps)) row)
    (hq : ∀ q ∈ pathWindows pe pn ((e, v) :: steps), q.eval g row pc = true) :
    ∃ t ss, (∃ V ∈ g.vertices, V.id = t) ∧
      ((windowPrev pe pn).inJoinTree = true → (windowPrev pe pn).Reaches row .left t) ∧
      LabelHolds g (windowPrevLabel pn) t ∧
      (∀ V, V.id = t → StepsWalk g V ((r, m) :: pattern) ss) ∧
      RowOfSteps row ((e, v) :: steps) ss := by
  induction steps generalizing pe pn e v r m pattern with
  | nil =>
    obtain ⟨he, hv, hc⟩ := hc
    rcases pattern with _ | _
    swap
    · exact hc.elim
    have hd := hdir _ (List.mem_cons_self _ _)
    obtain ⟨b, hE, hfit⟩ := hrow e (List.mem_cons_self _ _) (hedges _ (List.mem_cons_self _ _))
    obtain ⟨E, rfl, hEmem, hEadm⟩ := hfit.rel he
    simp only [pathWindows, List.head?_nil, Option.map_none', List.append_nil] at hq
    obtain ⟨hprev, hnext, hlabp, hlabn⟩ := (makeJoinConditionForEdge_directed_iff he hd hE).mp hq
    obtain ⟨V', hwalk, hrows⟩ := stepsWalk_cons_of_window hg hv hd hE hEmem hEadm
      (hrow v (by simp [flattenSteps])) rfl (hg.exists_head hEmem _)
      (fun h => (TransformEntity.reaches_node hv).mp (hnext h)) (by simpa using hlabn)
      (fun V _ => show StepsWalk g V [] [] from trivial) (show RowOfSteps row [] [] from trivial)
    exact ⟨_, _, hg.exists_tail hEmem _, hprev, hlabp, hwalk, hrows⟩
  | cons s steps ih =>
    obtain ⟨e', v'⟩ := s
    obtain ⟨he, hv, hc⟩ := hc
    rcases pattern with _ | ⟨⟨r', m'⟩, pattern⟩
    · exact hc.elim
    have hd := hdir _ (List.mem_cons_self _ _)
    have heJ := hedges _ (List.mem_cons_self _ _)
    obtain ⟨b, hE, hfit⟩ := hrow e (List.mem_cons_self _ _) heJ
    obtain ⟨E, rfl, hEmem, hEadm⟩ := hfit.rel he
    rw [pathWindows, List.forall_mem_append] at hq
    obtain ⟨hprev, hnext, hlabp, -⟩ := (makeJoinConditionForEdge_directed_iff he hd hE).mp hq.1
    obtain ⟨t', ss, hex, hentry, hlab, hwalk, hrows⟩ := ih hc
      (fun p hp => hdir p (List.mem_cons_of_mem _ hp))
      (fun s hs => hedges s (List.mem_cons_of_mem _ hs))
      (fun x hx => hrow x (List.mem_cons_of_mem _ (List.mem_cons_of_mem _ hx))) hq.2
    have hvid : v.inJoinTree = true → Field.eval row ⟨v, .id⟩ = some t' := fun h =>
      (TransformEntity.reaches_node hv).mp (by simpa [windowPrev, h] using hentry)
    -- the next window ties this edge's head to the next edge, or to the node between them
    have hhead : E.head r.dir = t' := by
      by_cases h : v.inJoinTree
      · simpa using ((TransformEntity.reaches_node hv).mp (hnext h)).symm.trans (hvid h)
      · exact (TransformEntity.reaches_left_directed he hd hE).mp
          (by simpa [windowPrev, h, heJ] using hentry)
    obtain ⟨V', hwalk, hrows⟩ := stepsWalk_cons_of_window hg hv hd hE hEmem hEadm
      (hrow v (by simp [flattenSteps])) hhead hex hvid hlab hwalk hrows
    exact ⟨_, _, hg.exists_tail hEmem _, hprev, hlabp, hwalk, hrows⟩

theorem edgeIds_eval {steps : List (TransformEntity × TransformEntity)} {ss : List (Edge × Vertex)}
    (hedges : ∀ s ∈ steps, s.1.inJoinTree = true) (hrow : RowOfSteps row steps ss) :
    steps.map (fun s => Field.eval row ⟨s.1, .id⟩) = ss.map fun s => some s.1.id := by
  induction steps generalizing ss with
  | nil => cases ss <;> first | rfl | exact hrow.elim
  | cons s steps ih =>
    rcases ss with _ | ⟨⟨E, V⟩, ss⟩
    · exact hrow.elim
    rw [List.map_cons, List.map_cons, ih (fun s hs => hedges s (List.mem_cons_of_mem _ hs)) hrow.2.2]
    simp [Field.eval, hrow.1 (hedges _ (List.mem_cons_self _ _))]

theorem filter_edges_flattenSteps {steps : List (TransformEntity × TransformEntity)} {pattern}
    (hc : CarriesSteps steps pattern) :
    (flattenSteps steps).filter (fun x => x.type == .edge) = steps.map Prod.fst := by
  induction steps generalizing pattern with
  | nil => rfl
  | cons s steps ih =>
    rcases pattern with _ | ⟨⟨r, m⟩, pattern⟩
    · exact hc.elim
    simp only [flattenSteps, List.filter_cons, ih hc.2.2]
    simp [TransformEntity.type, hc.1, hc.2.1]

/-- The uniqueness call `transform_match_path` adds from two edges on holds on a
row of a match exactly when the match's edges are distinct. -/
theorem duplicateEdgeQual_eval {v₀ : TransformEntity} {n₀ : CypherNode}
    {steps : List (TransformEntity × TransformEntity)} {pattern} {ss : List (Edge × Vertex)}
    (hv₀ : v₀.entity = .node n₀) (hc : CarriesSteps steps pattern)
    (hedges : ∀ s ∈ steps, s.1.inJoinTree = true) (hrow : RowOfSteps row steps ss) :
    (∀ q ∈ (if (v₀ :: flattenSteps steps).length > 3 then
        [preventDuplicateEdges (v₀ :: flattenSteps steps)] else []), q.eval g row pc = true) ↔
      (ss.map fun s => s.1.id).Nodup := by
  have hids := edgeIds_eval hedges hrow
  split_ifs with hlen
  · have hfilter : (v₀ :: flattenSteps steps).filter (fun x => x.type == .edge) =
        steps.map Prod.fst := by
      rw [List.filter_cons, if_neg (by simp [TransformEntity.type, hv₀]),
        filter_edges_flattenSteps hc]
    rw [← List.nodup_map_iff (Option.some_injective ℕ), List.map_map]
    simp only [preventDuplicateEdges, Qual.eval, hfilter, List.map_map, List.forall_mem_singleton,
      decide_eq_true_eq]
    exact Iff.of_eq (congrArg List.Nodup hids)
  · have : ss.length ≤ 1 := by
      have := congrArg List.length hids
      simp only [List.length_map, List.length_cons, length_flattenSteps] at this hlen
      omega
    match ss, this with
    | [], _ => simp
    | [_], _ => simp

/-- `make_path_join_quals` on the entities `v₀ e₀ v₁ …` of a path: its windows,
none for a path of one vertex. -/
theorem makePathJoinQuals_flattenSteps (v₀ : TransformEntity)
    (steps : List (TransformEntity × TransformEntity)) :
    makePathJoinQuals (v₀ :: flattenSteps steps) = some (pathWindows none v₀ steps) := by
  rcases steps with _ | ⟨⟨e₀, v₁⟩, steps⟩
  · rfl
  · exact makePathJoinQuals_alternating v₀ e₀ v₁ steps

/-- A row that holds a match of a path satisfies the path's join quals and its
uniqueness call, whatever the directions of its edges. -/
theorem pathQuals_of_match (hg : g.WellFormed) {v₀ : TransformEntity} {n₀ : CypherNode}
    {steps : List (TransformEntity × TransformEntity)} {pattern} {V₀ : Vertex}
    {ss : List (Edge × Vertex)} (hv₀ : v₀.entity = .node n₀) (hc : CarriesSteps steps pattern)
    (hedges : ∀ s ∈ steps, s.1.inJoinTree = true) (hmatch : IsPathMatch g n₀ pattern V₀ ss)
    (hrow : RowOfMatch row v₀ steps V₀ ss) :
    ∀ q ∈ pathWindows none v₀ steps ++ (if (v₀ :: flattenSteps steps).length > 3 then
        [preventDuplicateEdges (v₀ :: flattenSteps steps)] else []), q.eval g row pc = true := by
  obtain ⟨hV₀, hadm, hwalk, hnodup⟩ := isPathMatch_iff.mp hmatch
  rw [List.forall_mem_append]
  refine ⟨pathWindows_complete hg hc hedges ?_ ?_ hwalk hrow.2,
    (duplicateEdgeQual_eval hv₀ hc hedges hrow.2).mpr hnodup⟩
  · simpa using fun h => (TransformEntity.reaches_node hv₀).mpr (by simp [Field.eval, hrow.1 h])
  · rw [TransformEntity.label_of_node hv₀]
    exact (hg.labelHolds_iff hV₀ n₀).mpr hadm

/-- On a path whose edges are all directed, a row of the path's relations
satisfies its join quals and its uniqueness call exactly when it holds a match. -/
theorem directedPathQuals_iff_match (hg : g.WellFormed) {v₀ : TransformEntity} {n₀ : CypherNode}
    {steps : List (TransformEntity × TransformEntity)} {pattern} (hv₀ : v₀.entity = .node n₀)
    (hc : CarriesSteps steps pattern) (hne : steps ≠ []) (hdir : ∀ p ∈ pattern, p.1.dir ≠ .none)
    (hedges : ∀ s ∈ steps, s.1.inJoinTree = true)
    (hrow : RowAdmitted g (v₀ :: flattenSteps steps) row) :
    (∀ q ∈ pathWindows none v₀ steps ++ (if (v₀ :: flattenSteps steps).length > 3 then
        [preventDuplicateEdges (v₀ :: flattenSteps steps)] else []), q.eval g row pc = true) ↔
      ∃ V₀ ss, IsPathMatch g n₀ pattern V₀ ss ∧ RowOfMatch row v₀ steps V₀ ss := by
  refine ⟨fun hq => ?_, fun ⟨V₀, ss, hmatch, hrows⟩ => pathQuals_of_match hg hv₀ hc hedges hmatch hrows⟩
  rcases steps with _ | ⟨⟨e₀, v₁⟩, steps⟩
  · exact absurd rfl hne
  rcases pattern with _ | ⟨⟨r₀, m₀⟩, pattern⟩
  · exact hc.elim
  rw [List.forall_mem_append] at hq
  obtain ⟨t, ss, hex, hprev, hlab, hwalk, hrows⟩ :=
    pathWindows_sound hg hc hdir hedges (fun x hx => hrow x (List.mem_cons_of_mem _ hx)) hq.1
  simp only [windowPrev_none] at hprev
  obtain ⟨V₀, hV₀, rfl, hadm, hrow₀⟩ := exists_vertex hg hv₀ (hrow v₀ (List.mem_cons_self _ _))
    hex (fun h => (TransformEntity.reaches_node hv₀).mp (hprev h)) hlab
  exact ⟨V₀, ss, isPathMatch_iff.mpr ⟨hV₀, hadm, hwalk V₀ rfl,
    (duplicateEdgeQual_eval hv₀ hc hedges hrows).mp hq.2⟩, hrow₀, hrows⟩

end Path

end AgeCypher
