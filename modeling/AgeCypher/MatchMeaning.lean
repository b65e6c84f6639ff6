import AgeCypher.Steps
import AgeCypher.PathMeaning
/-!
# What a compiled `MATCH` path means

`transform_match_path` registers one transform entity per element of the path
and returns the path's join quals with the uniqueness call of its edges. On
every path the parser builds, `(n₀)-[r₀]-(n₁)-…`, the entities it registers
carry the path's elements with their labels resolved and their property maps,
every edge in the join tree; one property constraint is registered for each map,
and the quals are the windows of `make_path_join_quals`. Read on a row of
the registered entities' relations, over a graph whose vertex ids are distinct
and whose edges join its vertices:

* `matchPathQuals_hold_of_match`: the quals hold on every row that holds a match
  of the source path, whatever the directions of its edges; with undirected
  edges around a vertex left out of the join tree they also hold on a row that
  holds none (`matchUndirectedChain_acceptsNonMatch`);
* `matchPathQuals_iff_match`: when every edge is directed, they hold exactly on
  those rows, provided every element whose variable reads a column of an
  earlier clause, and so is not label-tested, carries the default label.
-/

namespace AgeCypher

/-- The cells after the first vertex of a path `(n₀)-[r₀]-(n₁)-…`, as the parser
lays them out. -/
def flattenPattern : List (CypherRelationship × CypherNode) → List PathElement
  | [] => []
  | (r, n) :: pattern => .rel r :: .node n :: flattenPattern pattern

/-- A vertex element after `transform_cypher_node`: its label, or the default one. -/
def NodeResolves (n n' : CypherNode) : Prop :=
  n'.label = some (n.label.getD agDefaultLabelVertex)

/-- The edge and vertex elements of a path after `transform_cypher_edge` and
`transform_cypher_node`: labels resolved, directions kept. -/
def PatternResolves : List (CypherRelationship × CypherNode) →
    List (CypherRelationship × CypherNode) → Prop
  | [], [] => True
  | (r, n) :: pattern, (r', n') :: pattern' =>
    r'.label = some (r.label.getD agDefaultLabelEdge) ∧ r'.dir = r.dir ∧ NodeResolves n n' ∧
      PatternResolves pattern pattern'
  | _, _ => False

/-- The property map of the parse node an entity was built from. -/
def TransformEntity.props (e : TransformEntity) : Option CypherProps :=
  match e.entity with
  | .node n => n.props
  | .rel r => r.props

/-- The property map of a path cell. -/
def PathElement.props : PathElement → Option CypherProps
  | .node n => n.props
  | .rel r => r.props

/-- The constraint `addPropertyConstraint` registers for an entity: one when its
element carries a property map. -/
def TransformEntity.propertyConstraint (e : TransformEntity) : Option Qual :=
  e.props.map (.propertyConstraint e)

/-! ## Resolved labels admit what the source labels admit -/

section Resolve

theorem vertexAdmits_of_resolves {n n' : CypherNode} (h : NodeResolves n n') (V : Vertex) :
    vertexAdmits n' V = vertexAdmits n V := by
  cases hn : n.label <;> simp [vertexAdmits, NodeResolves, hn] at h ⊢ <;> simp [h]

theorem edgeAdmits_of_resolves {r r' : CypherRelationship}
    (h : r'.label = some (r.label.getD agDefaultLabelEdge)) (E : Edge) :
    edgeAdmits r' E = edgeAdmits r E := by
  cases hr : r.label <;> simp [edgeAdmits, hr] at h ⊢ <;> simp [h]

theorem stepsWalk_of_resolves {g : Graph} {pattern pattern'} (h : PatternResolves pattern pattern')
    (a : Vertex) (ss : List (Edge × Vertex)) :
    StepsWalk g a pattern' ss ↔ StepsWalk g a pattern ss := by
  induction pattern generalizing pattern' a ss with
  | nil => rcases pattern' with _ | _ <;> first | exact h.elim | rfl
  | cons p pattern ih =>
    rcases pattern' with _ | ⟨⟨r', n'⟩, pattern'⟩
    · exact h.elim
    obtain ⟨hr, hd, hn, h⟩ := h
    rcases ss with _ | ⟨⟨E, b⟩, ss⟩
    · rfl
    simp only [StepsWalk, edgeAdmits_of_resolves hr, vertexAdmits_of_resolves hn, hd, ih h]

theorem isPathMatch_of_resolves {g : Graph} {n₀ n₀' : CypherNode} {pattern pattern'}
    (h₀ : NodeResolves n₀ n₀') (h : PatternResolves pattern pattern') (V₀ : Vertex)
    (ss : List (Edge × Vertex)) :
    IsPathMatch g n₀' pattern' V₀ ss ↔ IsPathMatch g n₀ pattern V₀ ss := by
  simp only [isPathMatch_iff, vertexAdmits_of_resolves h₀, stepsWalk_of_resolves h]

theorem PatternResolves.dir_ne_none {pattern pattern'} (h : PatternResolves pattern pattern')
    (hdir : ∀ p ∈ pattern, p.1.dir ≠ .none) : ∀ p ∈ pattern', p.1.dir ≠ .none := by
  induction pattern generalizing pattern' with
  | nil => rcases pattern' with _ | _ <;> first | exact h.elim | simp
  | cons p pattern ih =>
    rcases pattern' with _ | ⟨⟨r', n'⟩, pattern'⟩
    · exact h.elim
    simp only [List.forall_mem_cons] at hdir ⊢
    exact ⟨h.2.1 ▸ hdir.1, ih h.2.2.2 hdir.2⟩

theorem CarriesSteps.eq_nil {steps : List (TransformEntity × TransformEntity)} {pattern pattern'}
    (hc : CarriesSteps steps pattern') (h : PatternResolves pattern pattern') (hne : pattern ≠ []) :
    steps ≠ [] := by
  rintro rfl
  rcases pattern' with _ | _
  · rcases pattern with _ | _
    · exact hne rfl
    · exact h.elim
  · exact hc.elim

end Resolve

/-! ## The entities of a path -/

section Entities

variable {path : CypherPath} {tl : List TargetEntry} {s s' : CypherParseState}

theorem RegistryGrows.entities_eq (h : RegistryGrows (fun _ => False) s s') :
    s'.entities = s.entities := by
  obtain ⟨new, he, -, -, hp⟩ := h
  rw [he, List.eq_nil_iff_forall_not_mem.mpr hp, List.append_nil]

theorem transformElementLabel_eq {k : ElementKind} {l : Option String} {label : String}
    (h : (transformElementLabel k l).run s = .ok (label, s')) : label = l.getD k.defaultLabel := by
  cases l with
  | none => exact (run_pure_ok h).1
  | some l =>
    obtain ⟨kind, s₁, -, h⟩ := run_bind_ok h
    split at h
    · cases h
    · split at h
      · exact (run_pure_ok h).1
      · cases h

theorem transformCypherNode_resolves {node : CypherNode} {b : Bool}
    {r : Option Expr × CypherNode × List TargetEntry}
    (h : (transformCypherNode node tl b).run s = .ok (r, s')) : NodeResolves node r.2.1 := by
  obtain ⟨label, s₁, h₁, h⟩ := run_bind_ok h
  cases transformElementLabel_eq h₁
  split at h
  · obtain ⟨⟨e, n, tl₁⟩, s₂, -, h⟩ := run_bind_ok h
    cases (run_pure_ok h).1
    rfl
  · cases (run_pure_ok h).1
    rfl

/-- A vertex has an expression exactly when it is in the join tree. -/
theorem transformCypherNode_expr_isSome {node : CypherNode} {b : Bool}
    {r : Option Expr × CypherNode × List TargetEntry}
    (h : (transformCypherNode node tl b).run s = .ok (r, s')) : r.1.isSome = b := by
  obtain ⟨label, s₁, -, h⟩ := run_bind_ok h
  split at h
  · obtain ⟨⟨e, n, tl₁⟩, s₂, -, h⟩ := run_bind_ok h
    cases (run_pure_ok h).1
    exact ‹b = true›.symm
  · cases (run_pure_ok h).1
    simpa using ‹¬b = true›

theorem transformCypherEdge_resolves {rel : CypherRelationship}
    {r : Expr × CypherRelationship × List TargetEntry}
    (h : (transformCypherEdge rel tl).run s = .ok (r, s')) :
    r.2.1.label = some (rel.label.getD agDefaultLabelEdge) ∧ r.2.1.dir = rel.dir := by
  unfold transformCypherEdge at h
  split at h
  · cases h
  · obtain ⟨label, s₁, h₁, h⟩ := run_bind_ok h
    cases transformElementLabel_eq h₁
    obtain ⟨⟨e, n, tl₁⟩, s₂, -, h⟩ := run_bind_ok h
    cases (run_pure_ok h).1
    exact ⟨rfl, rfl⟩

theorem transformElementVariable_constraints {k : ElementKind} {name : Option String}
    {label : String} {hasProps : Bool} {r : Expr × String × List TargetEntry}
    (h : (transformElementVariable k name label hasProps tl).run s = .ok (r, s')) :
    s'.propertyConstraintQuals = s.propertyConstraintQuals := by
  rcases transformElementVariable_cases h with ⟨-, -, -, -, -, rfl⟩ | ⟨-, -, -, -, -, -, rfl⟩ |
    ⟨n, s₁, hs₁, h⟩
  · rfl
  · rfl
  · rw [addElementRelation_run] at h
    obtain ⟨-, rfl⟩ := Prod.mk.inj (Except.ok.inj h)
    rcases hs₁ with ⟨-, -, -, -, rfl⟩ | ⟨-, -, rfl⟩ <;> rfl

/-- A vertex element keeps its property map and registers no constraint. -/
theorem transformCypherNode_keeps {node : CypherNode} {b : Bool}
    {r : Option Expr × CypherNode × List TargetEntry}
    (h : (transformCypherNode node tl b).run s = .ok (r, s')) :
    r.2.1.props = node.props ∧ s'.propertyConstraintQuals = s.propertyConstraintQuals := by
  obtain ⟨label, s₁, h₁, h⟩ := run_bind_ok h
  cases transformElementLabel_readOnly _ _ _ _ _ h₁
  split at h
  · obtain ⟨⟨e, n, tl₁⟩, s₂, h₂, h⟩ := run_bind_ok h
    obtain ⟨rfl, rfl⟩ := run_pure_ok h
    exact ⟨rfl, transformElementVariable_constraints h₂⟩
  · obtain ⟨rfl, rfl⟩ := run_pure_ok h
    exact ⟨rfl, rfl⟩

/-- An edge element keeps its property map and registers no constraint. -/
theorem transformCypherEdge_keeps {rel : CypherRelationship}
    {r : Expr × CypherRelationship × List TargetEntry}
    (h : (transformCypherEdge rel tl).run s = .ok (r, s')) :
    r.2.1.props = rel.props ∧ s'.propertyConstraintQuals = s.propertyConstraintQuals := by
  unfold transformCypherEdge at h
  split at h
  · cases h
  · obtain ⟨label, s₁, h₁, h⟩ := run_bind_ok h
    cases transformElementLabel_readOnly _ _ _ _ _ h₁
    obtain ⟨⟨e, n, tl₁⟩, s₂, h₂, h⟩ := run_bind_ok h
    obtain ⟨rfl, rfl⟩ := run_pure_ok h
    exact ⟨rfl, transformElementVariable_constraints h₂⟩

/-- The constraint of an element with a property map is appended. -/
theorem addPropertyConstraint_constraints {x : TransformEntity} {props : Option CypherProps}
    {u : Unit} (h : (addPropertyConstraint x props).run s = .ok (u, s')) :
    s'.propertyConstraintQuals =
      s.propertyConstraintQuals ++ (props.map (.propertyConstraint x)).toList := by
  cases props with
  | none =>
    obtain ⟨-, rfl⟩ := run_pure_ok h
    exact (List.append_nil _).symm
  | some props =>
    obtain ⟨q, s₁, h₁, h⟩ := run_bind_ok h
    cases createPropertyConstraintFunction_readOnly _ _ _ _ _ h₁
    unfold createPropertyConstraintFunction at h₁
    obtain ⟨_, _, -, h₁⟩ := run_bind_ok h₁
    dsimp only at h₁
    obtain rfl : q = .propertyConstraint x props := by
      split at h₁ <;> obtain ⟨_, _, -, h₁⟩ := run_bind_ok h₁ <;> exact (run_pure_ok h₁).1
    cases h
    rfl

/-- A vertex cell: one entity registered for the resolved element, with the
element's constraint if it has a property map, then the rest of the path from the
next cell. -/
theorem transformMatchEntities_node {n : CypherNode} {rest : List PathElement}
    {r : List TransformEntity × List TargetEntry}
    (h : (transformMatchEntities path true (.node n :: rest) tl).run s = .ok (r, s')) :
    ∃ v n' tl₁ s₁ r₁, v.entity = .node n' ∧ NodeResolves n n' ∧
      (transformMatchEntities path false rest tl₁).run s₁ = .ok (r₁, s') ∧ r.1 = v :: r₁.1 ∧
      s₁.entities = s.entities ++ [v] ∧ v.props = n.props ∧
      s₁.propertyConstraintQuals = s.propertyConstraintQuals ++ v.propertyConstraint.toList ∧
      v.inJoinTree = includeNodeInJoinTree path n := by
  rw [transformMatchEntities] at h
  obtain ⟨⟨e, node', tl₁⟩, s₁, h₁, h⟩ := run_bind_ok h
  obtain ⟨entity, s₂, h₂, h⟩ := run_bind_ok h
  obtain ⟨u, s₃, h₃, h⟩ := run_bind_ok h
  obtain ⟨⟨es, tl₂⟩, s₄, h₄, h⟩ := run_bind_ok h
  obtain ⟨rfl, rfl⟩ := run_pure_ok h
  rw [registerEntity_run] at h₂
  obtain ⟨rfl, rfl⟩ := Prod.mk.inj (Except.ok.inj h₂)
  obtain ⟨hprops, hpcs⟩ := transformCypherNode_keeps h₁
  refine ⟨_, node', tl₁, s₃, (es, tl₂), rfl, transformCypherNode_resolves h₁, h₄, rfl, ?_, hprops,
    by rw [addPropertyConstraint_constraints h₃, ← hpcs]; rfl, transformCypherNode_expr_isSome h₁⟩
  rw [(@addPropertyConstraint_step false (fun _ => False) tl _ _ _ _ _ h₃).registry.entities_eq,
    (transformCypherNode_step (p := fun _ => False) h₁).registry.entities_eq]

/-- An edge cell: one entity in the join tree for the resolved element, with the
element's constraint if it has a property map, then the rest of the path from the
next cell. -/
theorem transformMatchEntities_rel {rel : CypherRelationship} {rest : List PathElement}
    {r : List TransformEntity × List TargetEntry}
    (h : (transformMatchEntities path false (.rel rel :: rest) tl).run s = .ok (r, s')) :
    ∃ e rel' tl₁ s₁ r₁, e.entity = .rel rel' ∧
      rel'.label = some (rel.label.getD agDefaultLabelEdge) ∧ rel'.dir = rel.dir ∧
      e.inJoinTree = true ∧ (transformMatchEntities path true rest tl₁).run s₁ = .ok (r₁, s') ∧
      r.1 = e :: r₁.1 ∧ s₁.entities = s.entities ++ [e] ∧ e.props = rel.props ∧
      s₁.propertyConstraintQuals = s.propertyConstraintQuals ++ e.propertyConstraint.toList := by
  rw [transformMatchEntities] at h
  obtain ⟨⟨e, rel', tl₁⟩, s₁, h₁, h⟩ := run_bind_ok h
  obtain ⟨entity, s₂, h₂, h⟩ := run_bind_ok h
  obtain ⟨u, s₃, h₃, h⟩ := run_bind_ok h
  obtain ⟨⟨es, tl₂⟩, s₄, h₄, h⟩ := run_bind_ok h
  obtain ⟨rfl, rfl⟩ := run_pure_ok h
  rw [registerEntity_run] at h₂
  obtain ⟨rfl, rfl⟩ := Prod.mk.inj (Except.ok.inj h₂)
  obtain ⟨hlabel, hdir⟩ := transformCypherEdge_resolves h₁
  obtain ⟨hprops, hpcs⟩ := transformCypherEdge_keeps h₁
  refine ⟨makeTransformEntity _ (.rel rel') (some e), rel', tl₁, s₃, (es, tl₂), rfl, hlabel, hdir,
    rfl, h₄, rfl, ?_, hprops, by rw [addPropertyConstraint_constraints h₃, ← hpcs]; rfl⟩
  rw [(@addPropertyConstraint_step false (fun _ => False) tl _ _ _ _ _ h₃).registry.entities_eq,
    (transformCypherEdge_step (p := fun _ => False) h₁).registry.entities_eq]

/-- On a path `(n₀)-[r₀]-(n₁)-…`, `transform_match_entities` registers the entities
`v₀ e₀ v₁ …` it returns, which carry the path's elements with their labels
resolved, every edge in the join tree. -/
theorem transformMatchEntities_alternating {n₀ : CypherNode} {pattern}
    {r : List TransformEntity × List TargetEntry}
    (h : (transformMatchEntities path true (.node n₀ :: flattenPattern pattern) tl).run s =
      .ok (r, s')) :
    ∃ v₀ steps n₀' pattern', r.1 = v₀ :: flattenSteps steps ∧ s'.entities = s.entities ++ r.1 ∧
      v₀.entity = .node n₀' ∧ NodeResolves n₀ n₀' ∧ CarriesSteps steps pattern' ∧
      PatternResolves pattern pattern' ∧ (∀ st ∈ steps, st.1.inJoinTree = true) ∧
      r.1.map TransformEntity.props = (.node n₀ :: flattenPattern pattern).map PathElement.props ∧
      s'.propertyConstraintQuals =
        s.propertyConstraintQuals ++ r.1.flatMap (·.propertyConstraint.toList) := by
  induction pattern generalizing n₀ tl s r with
  | nil =>
    obtain ⟨v, n', tl₁, s₁, r₁, hv, hn, h₁, hr, hs₁, hp, hc₁, -⟩ := transformMatchEntities_node h
    rw [flattenPattern, transformMatchEntities] at h₁
    obtain ⟨rfl, rfl⟩ := run_pure_ok h₁
    exact ⟨v, [], n', [], hr, by rw [hs₁, hr], hv, hn, trivial, trivial, by simp,
      by simp [hr, hp, flattenPattern, PathElement.props], by simp [hr, hc₁]⟩
  | cons p pattern ih =>
    obtain ⟨rel, m⟩ := p
    obtain ⟨v, n', tl₁, s₁, r₁, hv, hn, h₁, hr, hs₁, hp, hc₁, -⟩ := transformMatchEntities_node h
    obtain ⟨e, rel', tl₂, s₂, r₂, he, hlabel, hdir, hjt, h₂, hr₁, hs₂, hpe, hc₂⟩ :=
      transformMatchEntities_rel h₁
    obtain ⟨v₁, steps, m', pattern', hr₂, hs', hv₁, hm, hc, hres, hedges, hps, hcs⟩ := ih h₂
    refine ⟨v, (e, v₁) :: steps, n', (rel', m') :: pattern', by rw [hr, hr₁, hr₂]; rfl, ?_, hv, hn,
      ⟨he, hv₁, hc⟩, ⟨hlabel, hdir, hm, hres⟩, ?_, ?_, ?_⟩
    · rw [hs', hs₂, hs₁, hr, hr₁]
      simp
    · simpa [hjt] using hedges
    · rw [hr, hr₁]
      simp only [List.map_cons, hp, hpe, hps, flattenPattern, PathElement.props]
    · rw [hcs, hc₂, hc₁, hr, hr₁]
      simp

/-- On a path `(n₀)-[r₀]-(n₁)-…`, `transform_match_path` registers the path's
entities `v₀ e₀ v₁ …`, as `transformMatchEntities_alternating` describes them, and
returns the windows of `make_path_join_quals` over them with the uniqueness call
of their edges once the path has two. -/
theorem transformMatchPath_alternating {n₀ : CypherNode} {pattern} {quals : List Qual}
    {tl' : List TargetEntry} (hpath : path.path = .node n₀ :: flattenPattern pattern)
    (h : (transformMatchPath path tl).run s = .ok ((quals, tl'), s')) :
    ∃ v₀ steps n₀' pattern', s'.entities = s.entities ++ v₀ :: flattenSteps steps ∧
      v₀.entity = .node n₀' ∧ NodeResolves n₀ n₀' ∧ CarriesSteps steps pattern' ∧
      PatternResolves pattern pattern' ∧ (∀ st ∈ steps, st.1.inJoinTree = true) ∧
      quals = pathWindows none v₀ steps ++ (if (v₀ :: flattenSteps steps).length > 3 then
        [preventDuplicateEdges (v₀ :: flattenSteps steps)] else []) ∧
      (v₀ :: flattenSteps steps).map TransformEntity.props = path.path.map PathElement.props ∧
      s'.propertyConstraintQuals = s.propertyConstraintQuals ++
        (v₀ :: flattenSteps steps).flatMap (·.propertyConstraint.toList) := by
  obtain ⟨⟨es, tl₁⟩, s₁, h₁, h⟩ := run_bind_ok h
  rw [hpath] at h₁
  obtain ⟨v₀, steps, n₀', pattern', hes, hs₁, hv₀, hn₀, hc, hres, hedges, hprops, hpcs⟩ :=
    transformMatchEntities_alternating h₁
  subst hes
  dsimp only at h
  simp only [makePathJoinQuals_flattenSteps] at h
  -- the path variable's column leaves the registry and the constraints as they are
  obtain ⟨hq, hs', hpcs'⟩ : quals = pathWindows none v₀ steps ++
      (if (v₀ :: flattenSteps steps).length > 3 then
        [preventDuplicateEdges (v₀ :: flattenSteps steps)] else []) ∧ s'.entities = s₁.entities ∧
      s'.propertyConstraintQuals = s₁.propertyConstraintQuals := by
    split at h
    · obtain ⟨te, s₂, h₂, h⟩ := run_bind_ok h
      obtain ⟨-, -, -, -, rfl⟩ := transformMatchCreatePathVariable_spec h₂
      obtain ⟨y, s₃, h₃, h⟩ := run_bind_ok h
      obtain ⟨rfl, rfl⟩ := run_pure_ok h₃
      obtain ⟨hq, rfl⟩ := run_pure_ok h
      exact ⟨congrArg Prod.fst hq, rfl, rfl⟩
    · obtain ⟨y, s₃, h₃, h⟩ := run_bind_ok h
      obtain ⟨rfl, rfl⟩ := run_pure_ok h₃
      obtain ⟨hq, rfl⟩ := run_pure_ok h
      exact ⟨congrArg Prod.fst hq, rfl, rfl⟩
  exact ⟨v₀, steps, n₀', pattern', by rw [hs', hs₁], hv₀, hn₀, hc, hres, hedges, hq,
    by rw [hprops, hpath], by rw [hpcs', hpcs]⟩

end Entities

/-! ## The meaning of the compiled path -/

/-- On every path `(n₀)-[r₀]-(n₁)-…` that `transform_match_path` compiles,
whatever the directions of its edges: over a graph whose vertex ids are distinct
and whose edges join its vertices, every row that holds a match of the source
path on the entities the compilation registers satisfies every qual it returns. -/
theorem matchPathQuals_hold_of_match {path : CypherPath} {tl tl' : List TargetEntry}
    {s s' : CypherParseState} {n₀ : CypherNode} {pattern} {quals : List Qual}
    (hpath : path.path = .node n₀ :: flattenPattern pattern)
    (h : (transformMatchPath path tl).run s = .ok ((quals, tl'), s')) :
    ∃ v₀ steps, s'.entities = s.entities ++ v₀ :: flattenSteps steps ∧
      ∀ (g : Graph) (row : Row) (pc : TransformEntity → CypherProps → Bool) V₀ ss,
        g.WellFormed → IsPathMatch g n₀ pattern V₀ ss → RowOfMatch row v₀ steps V₀ ss →
          ∀ q ∈ quals, q.eval g row pc = true := by
  obtain ⟨v₀, steps, n₀', pattern', hreg, hv₀, hn₀, hc, hres, hedges, rfl, -⟩ :=
    transformMatchPath_alternating hpath h
  refine ⟨v₀, steps, hreg, fun g row pc V₀ ss hg hmatch hrow => ?_⟩
  exact pathQuals_of_match hg hv₀ hc hedges
    ((isPathMatch_of_resolves hn₀ hres V₀ ss).mpr hmatch) hrow

/-- `(a)-[r]-(:Person)`, its last vertex anonymous and so left out of the join
tree, its edge of direction `dir`. -/
def toPersonPath (dir : CypherRelDir) : CypherPath :=
  ⟨none, [.node ⟨some "a", none, none⟩, .rel ⟨some "r", none, none, false, dir⟩,
    .node ⟨none, some "Person", none⟩]⟩

/-- The root parse state of a graph whose only label is the vertex label `Person`. -/
def personGraphState : CypherParseState :=
  rootParseState ⟨[("Person", .vertex)], [], [], [], 0⟩

/-- The chain whose only clause is `MATCH (a)-[r]-(:Person)`, its path named `v`
or not, compiles. -/
theorem toPersonMatch_compiles (dir : CypherRelDir) (v : Option String) :
    ∃ q s', (transformCypherMatch none ⟨[{ toPersonPath dir with varName := v }], none⟩).run
      personGraphState = .ok (q, s') := by
  simp only [transformCypherMatch, transformCypherClauseWithWhere, transformCypherMatchPattern,
    transformMatchPattern, transformMatchPaths, transformQuals_run,
    transformMatchPath, transformMatchEntities, transformCypherNode, transformElementLabel,
    vertexElement, includeNodeInJoinTree, toPersonPath, Option.isSome_none, Option.isSome_some,
    Bool.or_false, Bool.or_eq_true, Bool.false_eq_true, or_true, ↓reduceIte,
    transformElementVariable, findTarget, List.find?_nil, beq_iff_eq, String.reduceAppend,
    addPropertyConstraint, transformCypherEdge, edgeElement, findVariable, TransformEntity.name,
    TransformEntity.type, bne_iff_ne, ne_eq, Bool.not_eq_eq_eq_not, Bool.not_true, Bool.or_self,
    makePathJoinQuals, gt_iff_lt, personGraphState, rootParseState, run_bind, run_pure,
    colNameToVar_run, colNameToVarLevels, except_pure, Nat.zero_add, except_ok_bind,
    colNameToVarLevel, except_map_ok, run_get, reduceCtorEq, addElementRelation_run,
    List.nil_append, labelRte, graphidOid, agtypeOid, List.length_nil, Nat.reduceAdd,
    registerEntity_run, makeTransformEntity, searchLabelNameGraphCache_run, ↓List.find?_cons,
    Bool.not_false, Option.some_beq_some, String.reduceBEq, Bool.and_false, scanRTEForColumn,
    List.zip_cons_cons, List.zip_nil_right, List.enum_cons, List.enumFrom_cons, List.enumFrom_nil,
    ↓List.filter_cons, List.filter_nil, List.cons_append, List.length_cons, List.lookup_cons,
    beq_self_eq_true, Nat.lt_irrefl, joinLoop, joinLoopBody, joinLoopInit, lookAhead,
    makeJoinConditionForEdge, makeDirectedEdgeJoinConditions, TransformEntity.inJoinTree,
    joinToEntity, List.append_nil, labelFilterQuals, Option.isNone_none, Bool.and_self,
    isDefaultLabelVertex, List.map_cons, Except.ok.injEq, Prod.mk.injEq, exists_and_left,
    exists_eq', and_true]
  cases v <;> cases dir <;> exact ⟨_, _, rfl⟩

theorem toPersonPath_compiles (dir : CypherRelDir) (v : Option String) :
    ∃ quals tl' s', (transformMatchPath { toPersonPath dir with varName := v } []).run
      personGraphState = .ok ((quals, tl'), s') := by
  obtain ⟨q, s', h⟩ := toPersonMatch_compiles dir v
  change (transformCypherMatchPattern none [{ toPersonPath dir with varName := v }]).run _ = _ at h
  obtain ⟨tl, s₁, h₁, h⟩ := run_bind_ok h
  obtain ⟨rfl, rfl⟩ := run_pure_ok h₁
  obtain ⟨⟨quals, tl₁⟩, s₂, h₂, -⟩ := run_bind_ok h
  rw [transformMatchPaths] at h₂
  obtain ⟨⟨qual, tl₂⟩, s₃, h₃, -⟩ := run_bind_ok h₂
  exact ⟨qual, tl₂, s₃, h₃⟩

theorem toPersonPath_undirected_hold_of_match :
    ∃ quals tl' s', (transformMatchPath (toPersonPath .none) []).run personGraphState =
        .ok ((quals, tl'), s') ∧
      ∃ v₀ steps, s'.entities = personGraphState.entities ++ v₀ :: flattenSteps steps ∧
        ∀ (g : Graph) (row : Row) (pc : TransformEntity → CypherProps → Bool) V₀ ss,
          g.WellFormed → IsPathMatch g ⟨some "a", none, none⟩
            [(⟨some "r", none, none, false, .none⟩, ⟨none, some "Person", none⟩)] V₀ ss →
          RowOfMatch row v₀ steps V₀ ss → ∀ q ∈ quals, q.eval g row pc = true :=
  let ⟨quals, tl', s', h⟩ := toPersonPath_compiles .none none
  ⟨quals, tl', s', h, matchPathQuals_hold_of_match rfl h⟩

/-! ## Undirected edges around a vertex left out of the join tree

An anonymous vertex of a path without a path variable gets no relation. Between
two undirected edges, `make_join_condition_for_edge` then ties each edge to the
other with `IN`: one endpoint of the current edge against both endpoints of its
neighbour. The two `IN`s are checked separately, so they need not meet in one
vertex: a row of two parallel edges satisfies the whole predicate of
`(a)-[e1]-()-[e2]-(c)` with `a` and `c` at the two ends, although no vertex joins
`e1` to `e2` on the way from `a` to `c`. -/

/-- `(a)-[e1]-()-[e2]-(c)`. -/
def undirectedChain : CypherPath :=
  ⟨none, [.node ⟨some "a", none, none⟩, .rel ⟨some "e1", none, none, false, .none⟩,
    .node ⟨none, none, none⟩, .rel ⟨some "e2", none, none, false, .none⟩,
    .node ⟨some "c", none, none⟩]⟩

/-- The vertex elements and edges of `undirectedChain` after its first vertex, as
`IsPathMatch` reads them. -/
def undirectedChainSteps : List (CypherRelationship × CypherNode) :=
  [(⟨some "e1", none, none, false, .none⟩, ⟨none, none, none⟩),
   (⟨some "e2", none, none, false, .none⟩, ⟨some "c", none, none⟩)]

/-- Two vertices and two parallel edges from the first to the second. -/
def parallelEdges : Graph :=
  ⟨[⟨1, agDefaultLabelVertex⟩, ⟨2, agDefaultLabelVertex⟩],
    [⟨10, agDefaultLabelEdge, 1, 2⟩, ⟨11, agDefaultLabelEdge, 1, 2⟩]⟩

/-- `a` (entity 0) on vertex 1, `e1` (entity 1) and `e2` (entity 3) on the two
edges, `c` (entity 4) on vertex 2; the anonymous vertex (entity 2) has no
relation. -/
def parallelRow : Row := fun id =>
  match id with
  | 0 => some (.vertex ⟨1, agDefaultLabelVertex⟩)
  | 1 => some (.edge ⟨10, agDefaultLabelEdge, 1, 2⟩)
  | 3 => some (.edge ⟨11, agDefaultLabelEdge, 1, 2⟩)
  | 4 => some (.vertex ⟨2, agDefaultLabelVertex⟩)
  | _ => none

/-- No match of `undirectedChain` agrees with `parallelRow`: `e1` leaves vertex 1
for vertex 2, and `e2` leads from vertex 2 only back to vertex 1, not to `c`. -/
theorem parallelRow_noMatch {entities : List TransformEntity}
    (hids : entities.map (·.id) = [0, 1, 2, 3, 4]) :
    ¬ ∃ v₀ steps, IsPathMatch parallelEdges ⟨some "a", none, none⟩ undirectedChainSteps v₀ steps ∧
      RowAgrees parallelRow entities v₀ steps := by
  rintro ⟨v₀, steps, ⟨hlen, -, -, -, hwalk, -⟩, hagree⟩
  obtain ⟨⟨d₁, m⟩, ⟨d₂, c⟩, rfl⟩ : ∃ s₁ s₂, steps = [s₁, s₂] := by
    rcases steps with _ | ⟨s₁, _ | ⟨s₂, _ | ⟨_, _⟩⟩⟩ <;> simp_all [undirectedChainSteps]
  simp only [List.map_eq_cons_iff, List.map_eq_nil_iff] at hids
  obtain ⟨x₀, _, rfl, h₀, x₁, _, rfl, h₁, x₂, _, rfl, -, x₃, _, rfl, h₃, x₄, _, rfl, h₄, rfl⟩ := hids
  simp only [RowAgrees, matchBindings, List.flatMap_cons, List.flatMap_nil, List.zip_cons_cons,
    List.zip_nil_right, List.mem_cons, List.mem_singleton, forall_eq_or_imp, forall_eq,
    List.cons_append, List.nil_append, List.append_nil, h₀, h₁, h₃, h₄, parallelRow] at hagree
  obtain ⟨ha, he₁, -, he₂, hc, -⟩ := hagree
  cases ha _ rfl
  cases he₁ _ rfl
  cases he₂ _ rfl
  cases hc _ rfl
  simp [walkJoins, edgeJoins, undirectedChainSteps] at hwalk
  omega
/-- The compiled `MATCH (a)-[e1]-()-[e2]-(c)`: the row `parallelRow` satisfies each
of its quals, and its entities are numbered 0 to 4 in path order. -/
theorem undirectedChain_compiles :
    ∃ q s' quals, (transformCypherClause true [.cypherMatch ⟨[undirectedChain], none⟩]).run
        (rootParseState ⟨[], [], [], [], 0⟩) = .ok (q, s') ∧
      q.quals = some (.matchPattern quals []) ∧
      (∀ qual ∈ quals, qual.eval parallelEdges parallelRow (fun _ _ => true) = true) ∧
      s'.entities.map (·.id) = [0, 1, 2, 3, 4] := by
  simp only [transformCypherClause, transformCypherMatch, transformCypherClauseWithWhere,
    transformCypherMatchPattern, List.isEmpty_nil, ↓reduceIte, transformMatchPattern,
    transformMatchPaths, transformMatchPath, transformMatchEntities, transformCypherNode,
    transformElementLabel, vertexElement, includeNodeInJoinTree, Option.isSome_some, Bool.or_self,
    Option.isSome_none, Bool.or_false, Bool.or_true, transformElementVariable, findTarget, TransformEntity.type,
    Bool.or_eq_true, bne_iff_ne, ne_eq, Bool.not_eq_eq_eq_not, Bool.not_true, String.reduceAppend,
    beq_iff_eq, addPropertyConstraint, undirectedChain,
    transformCypherEdge, Bool.false_eq_true, edgeElement,
    makePathJoinQuals, gt_iff_lt,
    List.length_cons, List.length_singleton, Nat.reduceAdd, Nat.lt_irrefl, List.map_cons,
    List.map_nil, joinLoop, joinLoopBody, joinLoopInit, lookAhead, makeJoinConditionForEdge,
    makeDirectedEdgeJoinConditions, TransformEntity.inJoinTree, Option.getD_none, ite_self,
    joinToEntity, labelFilterQuals, TransformEntity.label, List.append_assoc, Option.isNone_none,
    Bool.and_true, Option.not_isSome, Option.isNone_iff_eq_none, List.map_append, List.nil_append,
    List.append_nil, transformQuals_run, List.find?_nil,
    rootParseState, run_bind, run_pure, run_map, run_get, colNameToVar_run, colNameToVarLevels,
    colNameToVarLevel, except_pure, except_ok_bind, except_map_ok, registerEntity_run,
    makeTransformEntity, Nat.zero_add, nextResno_run,
    List.singleton_append, Option.getD_some, List.flatMap_append, List.flatMap_cons, Qual.fields,
    List.cons_append, TransformEntity.name,
    List.flatMap_nil, addElementRelation_run,
    List.length_nil, labelRte, graphidOid, agtypeOid, scanRTEForColumn, systemColumnByName, systemColumns, SystemColumn.name, Option.map_none', List.zip_cons_cons,
    List.zip_nil_right, List.enum_cons, List.enumFrom_cons, List.enumFrom_nil, String.reduceBEq,
    ↓List.filter_cons, List.filter_nil, Bool.not_false,
    Option.some_beq_some, Bool.and_false, ↓List.find?_cons, Field.resolves, refnameLookup,
    ↓List.findSome?_cons, beq_self_eq_true, Bool.and_self, Option.map_some', Option.map_none',
    Except.ok.injEq, Prod.mk.injEq, exists_and_left, exists_and_right, exists_eq', and_true,
    exists_eq_left', preventDuplicateEdges, makeEdgeQuals, isDefaultLabelVertex, Nat.reduceLT, Nat.reduceGT,
    reduceCtorEq, Bool.true_and, Option.map_some, Option.map_none, List.isEmpty_cons,
    Bool.false_and, and_assoc, exists_eq_left, Option.some.injEq, JoinTreeQual.matchPattern.injEq]
  decide

/-- `MATCH (a)-[e1]-()-[e2]-(c)` on `parallelEdges`: the row `parallelRow` satisfies
every qual of the compiled query, and no match of the pattern agrees with it. -/
theorem matchUndirectedChain_acceptsNonMatch :
    ∃ q s' quals, (transformCypherClause true [.cypherMatch ⟨[undirectedChain], none⟩]).run
        (rootParseState ⟨[], [], [], [], 0⟩) = .ok (q, s') ∧
      q.quals = some (.matchPattern quals []) ∧
      (∀ qual ∈ quals, qual.eval parallelEdges parallelRow (fun _ _ => true) = true) ∧
      ¬ ∃ v₀ steps, IsPathMatch parallelEdges ⟨some "a", none, none⟩ undirectedChainSteps v₀ steps ∧
        RowAgrees parallelRow s'.entities v₀ steps := by
  obtain ⟨q, s', quals, hrun, hq, hsat, hids⟩ := undirectedChain_compiles
  exact ⟨q, s', quals, hrun, hq, hsat, parallelRow_noMatch hids⟩

/-- On every path `(n₀)-[r₀]-(n₁)-…` of at least one edge, all of them directed,
that `transform_match_path` compiles: over a graph whose vertex ids are distinct
and whose edges join its vertices, a row of the relations of the entities the
compilation registers satisfies every qual it returns exactly when it holds a
match of the source path. An entity that reads a column of an earlier clause is
not label-tested, so its element must carry no label but the default one. -/
theorem matchPathQuals_iff_match {path : CypherPath} {tl tl' : List TargetEntry}
    {s s' : CypherParseState} {n₀ : CypherNode} {pattern} {quals : List Qual}
    (hpath : path.path = .node n₀ :: flattenPattern pattern) (hne : pattern ≠ [])
    (hdir : ∀ p ∈ pattern, p.1.dir ≠ .none)
    (h : (transformMatchPath path tl).run s = .ok ((quals, tl'), s')) :
    ∃ v₀ steps, s'.entities = s.entities ++ v₀ :: flattenSteps steps ∧
      ∀ (g : Graph) (row : Row) (pc : TransformEntity → CypherProps → Bool),
        g.WellFormed → RowOfRelations g (v₀ :: flattenSteps steps) row →
          ColumnsUnlabelled (v₀ :: flattenSteps steps) →
          ((∀ q ∈ quals, q.eval g row pc = true) ↔
            ∃ V₀ ss, IsPathMatch g n₀ pattern V₀ ss ∧ RowOfMatch row v₀ steps V₀ ss) := by
  obtain ⟨v₀, steps, n₀', pattern', hreg, hv₀, hn₀, hc, hres, hedges, rfl, -⟩ :=
    transformMatchPath_alternating hpath h
  refine ⟨v₀, steps, hreg, fun g row pc hg hrow hl => ?_⟩
  rw [directedPathQuals_iff_match hg hv₀ hc (hc.eq_nil hres hne) (hres.dir_ne_none hdir) hedges
    (hrow.admitted hl)]
  simp only [isPathMatch_of_resolves hn₀ hres]

theorem toPersonPath_right_iff_match :
    ∃ quals tl' s', (transformMatchPath (toPersonPath .right) []).run personGraphState =
        .ok ((quals, tl'), s') ∧
      ∃ v₀ steps, s'.entities = personGraphState.entities ++ v₀ :: flattenSteps steps ∧
        ∀ (g : Graph) (row : Row) (pc : TransformEntity → CypherProps → Bool),
          g.WellFormed → RowOfRelations g (v₀ :: flattenSteps steps) row →
          ColumnsUnlabelled (v₀ :: flattenSteps steps) →
            ((∀ q ∈ quals, q.eval g row pc = true) ↔
              ∃ V₀ ss, IsPathMatch g ⟨some "a", none, none⟩
                [(⟨some "r", none, none, false, .right⟩, ⟨none, some "Person", none⟩)] V₀ ss ∧
                RowOfMatch row v₀ steps V₀ ss) :=
  let ⟨quals, tl', s', h⟩ := toPersonPath_compiles .right none
  ⟨quals, tl', s', h, matchPathQuals_iff_match rfl (List.cons_ne_nil _ _) (by decide) h⟩

end AgeCypher
