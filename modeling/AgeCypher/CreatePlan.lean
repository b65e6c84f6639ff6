import AgeCypher.CreateSteps
import AgeCypher.MatchMeaning
/-!
# What a compiled `CREATE` plan holds

The plan of a `CREATE` clause (`cypher_create_target_nodes`) holds one path per
path of the pattern and one target node per element, in order. A vertex is
either an existing one, read from a column and written with no label and no
property map, or inserted into the relation of its label (the default vertex
label when it has none); an edge is always inserted, into the relation of the
label it must carry, in its direction, which must not be `NONE`. A label that
does not exist yet is created first (`create_label`), so the executor finds the
relation of every element it inserts.

* `TargetFits`: what an element compiles to, with the label relations the
  catalog holds;
* `createPlan_fitsPattern`: the plan a `CREATE` clause compiles to fits its
  pattern, against the catalog of the state the clause ends in.
-/

namespace AgeCypher

/-- The target node `tn` of a `CREATE` element: of the element's kind and
variable, marked as part of a named path exactly when it is. A vertex is
inserted into the relation of its label, or the default one, which the catalog
holds; or it is an existing vertex, which carries no label and no property map.
An edge is inserted into the relation of its label, which it must carry and the
catalog holds, in its direction, which is not `NONE`. -/
def TargetFits (catalog : List (String × LabelKind)) (inPath : Bool) :
    PathElement → CypherTargetNode → Prop
  | .node n, tn => tn.type = .vertex ∧ tn.variableName = n.name ∧ tn.flags.inPathVar = inPath ∧
      (tn.flags.insert = true ∧ tn.relid = some (n.label.getD agDefaultLabelVertex) ∧
          (catalog.lookup (n.label.getD agDefaultLabelVertex)).isSome ∨
        tn.flags.insert = false ∧ n.label = none ∧ n.props = none)
  | .rel r, tn => tn.type = .edge ∧ tn.variableName = r.name ∧ tn.flags.inPathVar = inPath ∧
      tn.flags.insert = true ∧ r.dir ≠ .none ∧ tn.dir = some r.dir ∧
      ∃ l, r.label = some l ∧ tn.relid = some l ∧ (catalog.lookup l).isSome

/-! ## The catalog only grows -/

section Catalog

variable {c c' : List (String × LabelKind)} {label : String}

theorem lookup_isSome_of_prefix (h : c <+: c') (hl : (c.lookup label).isSome) :
    (c'.lookup label).isSome := by
  obtain ⟨t, rfl⟩ := h
  obtain ⟨p, hp, hk⟩ := List.lookup_isSome_iff.1 hl
  exact List.lookup_isSome_iff.2 ⟨p, List.mem_append_left _ hp, hk⟩

theorem TargetFits.mono {inPath : Bool} {el : PathElement} {tn : CypherTargetNode}
    (h : TargetFits c inPath el tn) (hc : c <+: c') : TargetFits c' inPath el tn := by
  cases el with
  | node n =>
    obtain ⟨hty, hvar, hpath, ⟨hins, hrel, hl⟩ | hold⟩ := h
    · exact ⟨hty, hvar, hpath, .inl ⟨hins, hrel, lookup_isSome_of_prefix hc hl⟩⟩
    · exact ⟨hty, hvar, hpath, .inr hold⟩
  | rel r =>
    obtain ⟨hty, hvar, hpath, hins, hne, hdir, l, hlabel, hrel, hl⟩ := h
    exact ⟨hty, hvar, hpath, hins, hne, hdir, l, hlabel, hrel, lookup_isSome_of_prefix hc hl⟩

/-- Marking the target of an element of a named path. -/
theorem TargetFits.inPath {el : PathElement} {tn : CypherTargetNode} (inPath : Bool)
    (h : TargetFits c false el tn) :
    TargetFits c inPath el (if inPath then { tn with flags.inPathVar := true } else tn) := by
  cases inPath with
  | false => exact h
  | true =>
    cases el with
    | node n =>
      obtain ⟨hty, hvar, -, hrest⟩ := h
      exact ⟨hty, hvar, rfl, hrest⟩
    | rel r =>
      obtain ⟨hty, hvar, -, hrest⟩ := h
      exact ⟨hty, hvar, rfl, hrest⟩

end Catalog

/-! ## One element -/

section Elements

variable {tl : List TargetEntry} {s s' : CypherParseState}

/-- `label_exists` then `create_label`: afterwards the catalog holds the label. -/
theorem ensureLabel_catalog {kind : LabelKind} {u : Unit}
    (h : (ensureLabel label kind).run s = .ok (u, s')) :
    s.global.catalog <+: s'.global.catalog ∧ (s'.global.catalog.lookup label).isSome := by
  cases h
  dsimp only
  split
  · exact ⟨List.prefix_refl _, ‹_›⟩
  · exact ⟨List.prefix_append _ _,
      List.lookup_isSome_iff.2 ⟨_, List.mem_append_right _ (List.mem_singleton_self _), beq_self_eq_true _⟩⟩

theorem addLabelRelation_catalog {kind : LabelKind} {u : Unit}
    (h : (addLabelRelation label kind).run s = .ok (u, s')) :
    s'.global.catalog = s.global.catalog := by
  replace ⟨st, s₁, h₁, h⟩ := run_bind_ok h
  obtain ⟨rfl, rfl⟩ := run_get_ok h₁
  replace ⟨i, s₂, h₂, h⟩ := run_bind_ok h
  rw [addRangeTableEntry_run] at h₂
  obtain ⟨rfl, rfl⟩ := Prod.mk.inj (Except.ok.inj h₂)
  obtain ⟨-, rfl⟩ := run_pure_ok h
  rfl

/-- An inserted vertex: into the relation of its label, which the catalog holds. -/
theorem transformCreateCypherNewNode_fits {node : CypherNode}
    {r : CypherTargetNode × CypherNode × List TargetEntry}
    (h : (transformCreateCypherNewNode tl node).run s = .ok (r, s')) :
    TargetFits s'.global.catalog false (.node node) r.1 ∧ s.global.catalog <+: s'.global.catalog := by
  replace ⟨u, s₁, h₁, h⟩ := run_bind_ok h
  obtain ⟨hpre, hlook⟩ := ensureLabel_catalog h₁
  replace ⟨u, s₂, h₂, h⟩ := run_bind_ok h
  have hcat := addLabelRelation_catalog h₂
  obtain ⟨e, h⟩ := propertiesColumn_ok h
  dsimp only at h
  cases hn : node.name with
  | none =>
    rw [hn] at h
    obtain ⟨rfl, rfl⟩ := run_pure_ok h
    exact ⟨⟨rfl, hn.symm, rfl, .inl ⟨rfl, rfl, hcat ▸ hlook⟩⟩, hcat ▸ hpre⟩
  | some name =>
    rw [hn] at h
    replace ⟨te, s₃, h₃, h⟩ := run_bind_ok h
    obtain ⟨rfl, rfl⟩ := placeholderTargetEntry_spec h₃
    obtain ⟨rfl, rfl⟩ := run_pure_ok h
    exact ⟨⟨rfl, hn.symm, rfl, .inl ⟨rfl, rfl, hcat ▸ hlook⟩⟩, hcat ▸ hpre⟩

theorem transformCreateCypherNode_fits {node : CypherNode}
    {r : CypherTargetNode × CypherNode × List TargetEntry}
    (h : (transformCreateCypherNode tl node).run s = .ok (r, s')) :
    TargetFits s'.global.catalog false (.node node) r.1 ∧ s.global.catalog <+: s'.global.catalog := by
  rcases transformCreateCypherNode_cases h with ⟨name, e, hn, -, -, h⟩ | ⟨-, h⟩
  · obtain ⟨rfl, hp, hl, rfl⟩ := transformCreateCypherExistingNode_spec h
    exact ⟨⟨rfl, hn.symm, rfl, .inr ⟨rfl, hl, hp⟩⟩, List.prefix_refl _⟩
  · exact transformCreateCypherNewNode_fits h

theorem createEdgeVariable_catalog {name : Option String}
    {r : Option String × Int × List TargetEntry} (h : (createEdgeVariable tl name).run s = .ok (r, s')) :
    s'.global.catalog = s.global.catalog := by
  cases name with
  | none => rw [(run_pure_ok h).2]
  | some name =>
    replace ⟨b, s₁, h₁, h⟩ := run_bind_ok h
    cases variableExists_readOnly _ _ _ _ h₁
    split at h
    · cases h
    · replace ⟨te, s₂, h₂, h⟩ := run_bind_ok h
      obtain ⟨-, rfl⟩ := placeholderTargetEntry_spec h₂
      rw [(run_pure_ok h).2]

/-- An edge: inserted in its direction, which is not `NONE`, into the relation of
its label, which it carries and the catalog holds. -/
theorem transformCreateCypherEdge_fits {edge : CypherRelationship}
    {r : CypherTargetNode × List TargetEntry}
    (h : (transformCreateCypherEdge tl edge).run s = .ok (r, s')) :
    TargetFits s'.global.catalog false (.rel edge) r.1 ∧ s.global.catalog <+: s'.global.catalog := by
  replace ⟨⟨v, pos, tl₁⟩, s₁, h₁, h⟩ := run_bind_ok h
  obtain ⟨rfl, -, -⟩ := createEdgeVariable_spec (p := fun _ => True) h₁
  have hcat₁ := createEdgeVariable_catalog h₁
  dsimp only at h
  split at h
  · cases h
  rename_i hdir
  split at h
  · rename_i l hl
    replace ⟨u, s₂, h₂, h⟩ := run_bind_ok h
    obtain ⟨hpre, hlook⟩ := ensureLabel_catalog h₂
    replace ⟨u, s₃, h₃, h⟩ := run_bind_ok h
    have hcat := addLabelRelation_catalog h₃
    obtain ⟨e, h⟩ := propertiesColumn_ok h
    obtain ⟨rfl, rfl⟩ := run_pure_ok h
    refine ⟨⟨rfl, rfl, rfl, rfl, by simpa using hdir, rfl, l, hl, rfl, hcat ▸ hlook⟩, ?_⟩
    rw [hcat₁] at hpre
    exact hcat ▸ hpre
  · cases h

end Elements

/-! ## Paths and the plan -/

section Plan

variable {tl : List TargetEntry} {s s' : CypherParseState}

theorem transformCypherCreatePathElements_fits {inPath : Bool} {els : List PathElement}
    {r : List CypherTargetNode × List TargetEntry}
    (h : (transformCypherCreatePathElements inPath els tl).run s = .ok (r, s')) :
    List.Forall₂ (TargetFits s'.global.catalog inPath) els r.1 ∧
      s.global.catalog <+: s'.global.catalog := by
  induction els generalizing tl s r with
  | nil =>
    obtain ⟨rfl, rfl⟩ := run_pure_ok h
    exact ⟨.nil, List.prefix_refl _⟩
  | cons el rest ih =>
    -- one element, registered with no expression, then the rest
    have hstep : ∀ {tn : CypherTargetNode} {n : EntityNode} {tl₁ : List TargetEntry} {s₁ : CypherParseState},
        TargetFits s₁.global.catalog false el tn → s.global.catalog <+: s₁.global.catalog →
        (do
          let _ ← registerEntity n none
          let (rels, targetList) ← transformCypherCreatePathElements inPath rest tl₁
          pure ((if inPath then { tn with flags.inPathVar := true } else tn) :: rels, targetList) :
            TransformM (List CypherTargetNode × List TargetEntry)).run s₁ = .ok (r, s') →
        List.Forall₂ (TargetFits s'.global.catalog inPath) (el :: rest) r.1 ∧
          s.global.catalog <+: s'.global.catalog := by
      intro tn n tl₁ s₁ hfits hpre h
      replace ⟨ent, s₂, h₂, h⟩ := run_bind_ok h
      rw [registerEntity_run] at h₂
      obtain ⟨rfl, rfl⟩ := Prod.mk.inj (Except.ok.inj h₂)
      replace ⟨⟨rels, tl₂⟩, s₃, h₃, h⟩ := run_bind_ok h
      obtain ⟨rfl, rfl⟩ := run_pure_ok h
      obtain ⟨hrest, hpre'⟩ := ih h₃
      exact ⟨.cons ((hfits.inPath inPath).mono hpre') hrest, hpre.trans hpre'⟩
    cases el with
    | node node =>
      replace ⟨⟨rel, node', tl₁⟩, s₁, h₁, h⟩ := run_bind_ok h
      obtain ⟨hfits, hpre⟩ := transformCreateCypherNode_fits h₁
      exact hstep hfits hpre h
    | rel edge =>
      replace ⟨⟨rel, tl₁⟩, s₁, h₁, h⟩ := run_bind_ok h
      obtain ⟨hfits, hpre⟩ := transformCreateCypherEdge_fits h₁
      exact hstep hfits hpre h

theorem transformCypherCreatePath_fits {path : CypherPath} {r : CypherCreatePath × List TargetEntry}
    (h : (transformCypherCreatePath tl path).run s = .ok (r, s')) :
    List.Forall₂ (TargetFits s'.global.catalog path.varName.isSome) path.path r.1.targetNodes ∧
      s.global.catalog <+: s'.global.catalog := by
  replace ⟨⟨nodes, tl₁⟩, s₁, h₁, h⟩ := run_bind_ok h
  obtain ⟨hfits, hpre⟩ := transformCypherCreatePathElements_fits h₁
  cases hv : path.varName with
  | none =>
    simp only [hv] at h hfits
    obtain ⟨rfl, rfl⟩ := run_pure_ok h
    exact ⟨hfits, hpre⟩
  | some name =>
    simp only [hv] at h hfits
    split at h
    · cases h
    · replace ⟨te, s₂, h₂, h⟩ := run_bind_ok h
      obtain ⟨-, rfl⟩ := placeholderTargetEntry_spec h₂
      obtain ⟨rfl, rfl⟩ := run_pure_ok h
      exact ⟨hfits, hpre⟩

theorem transformCypherCreatePattern_fits {pattern : List CypherPath}
    {r : List CypherCreatePath × List TargetEntry}
    (h : (transformCypherCreatePattern pattern tl).run s = .ok (r, s')) :
    List.Forall₂ (fun path ccp => List.Forall₂ (TargetFits s'.global.catalog path.varName.isSome)
      path.path ccp.targetNodes) pattern r.1 ∧ s.global.catalog <+: s'.global.catalog := by
  induction pattern generalizing tl s r with
  | nil =>
    obtain ⟨rfl, rfl⟩ := run_pure_ok h
    exact ⟨.nil, List.prefix_refl _⟩
  | cons path pattern ih =>
    replace ⟨⟨ccp, tl₁⟩, s₁, h₁, h⟩ := run_bind_ok h
    replace ⟨⟨paths, tl₂⟩, s₂, h₂, h⟩ := run_bind_ok h
    obtain ⟨rfl, rfl⟩ := run_pure_ok h
    obtain ⟨hfits, hpre⟩ := transformCypherCreatePath_fits h₁
    obtain ⟨hrest, hpre'⟩ := ih h₂
    exact ⟨.cons (hfits.imp fun _ _ hf => hf.mono hpre') hrest, hpre.trans hpre'⟩

/-- The plan of a `CREATE` clause, its last column, fits the clause's pattern:
one path per path of the pattern and one target node per element, each of the
element's kind and variable; every inserted element goes into the relation of a
label the catalog holds when the clause is compiled, every edge in its
direction, which is not `NONE`; and every existing vertex carries no label and no
property map. -/
theorem createPlan_fitsPattern (prev : Option (TransformM Query)) (terminal : Bool)
    (pattern : List CypherPath) (s s' : CypherParseState) (q : Query)
    (h : (transformCypherCreate prev terminal pattern).run s = .ok (q, s')) :
    ∃ paths, (q.targetList.getLast?.map (·.expr)) =
        some (.clauseFunction (.create ⟨paths, { previousClause := prev.isSome, terminal }⟩)) ∧
      List.Forall₂ (fun path ccp => List.Forall₂ (TargetFits s'.global.catalog path.varName.isSome)
        path.path ccp.targetNodes) pattern paths := by
  replace ⟨tl, s₁, _, h⟩ := run_bind_ok h
  replace ⟨resno, s₂, h₂, h⟩ := run_bind_ok h
  rw [nextResno_run] at h₂
  obtain ⟨rfl, rfl⟩ := Prod.mk.inj (Except.ok.inj h₂)
  replace ⟨⟨paths, tl₃⟩, s₃, h₃, h⟩ := run_bind_ok h
  obtain ⟨hfits, -⟩ := transformCypherCreatePattern_fits h₃
  replace ⟨resno', s₄, h₄, h⟩ := run_bind_ok h
  rw [nextResno_run] at h₄
  obtain ⟨rfl, rfl⟩ := Prod.mk.inj (Except.ok.inj h₄)
  replace ⟨st, s₅, h₅, h⟩ := run_bind_ok h
  obtain ⟨rfl, rfl⟩ := run_get_ok h₅
  obtain ⟨rfl, rfl⟩ := run_pure_ok h
  exact ⟨paths, by simp, hfits⟩

/-- `CREATE p = (a:Person)-[:KNOWS]->(b)`: a named path, a labelled vertex, an
edge whose label does not exist yet and a vertex of the default label. -/
def knowsPath : CypherPath :=
  ⟨some "p", [.node ⟨some "a", some "Person", none⟩, .rel ⟨none, some "KNOWS", none, false, .right⟩,
    .node ⟨some "b", none, none⟩]⟩

theorem knowsPathCreate_compiles :
    ∃ q s', (transformCypherCreate none true [knowsPath]).run personGraphState = .ok (q, s') := by
  simp only [transformCypherCreate, transformCypherCreatePattern, transformCypherCreatePath,
    transformCypherCreatePathElements, transformCreateCypherNode, transformCreateCypherNewNode,
    transformCreateCypherEdge, createEdgeVariable, ensureLabel, addLabelRelation,
    cypherCreateProperties, placeholderTargetEntry, knowsPath, personGraphState, rootParseState,
    run_bind, run_pure, run_get, StateT.run_modify, findVariable, List.find?_nil, except_ok_bind,
    except_pure, nextResno_run, getNextDefaultAlias_run, registerEntity_run, addRangeTableEntry_run,
    List.lookup_cons, List.lookup_nil]
  exact ⟨_, _, rfl⟩

theorem knowsPathCreate_fitsPattern :
    ∃ q s', (transformCypherCreate none true [knowsPath]).run personGraphState = .ok (q, s') ∧
      ∃ paths, (q.targetList.getLast?.map (·.expr)) =
          some (.clauseFunction (.create ⟨paths, { previousClause := false, terminal := true }⟩)) ∧
        List.Forall₂ (fun path ccp => List.Forall₂ (TargetFits s'.global.catalog path.varName.isSome)
          path.path ccp.targetNodes) [knowsPath] paths :=
  let ⟨q, s', h⟩ := knowsPathCreate_compiles
  ⟨q, s', h, createPlan_fitsPattern none true [knowsPath] personGraphState s' q h⟩

end Plan

end AgeCypher
