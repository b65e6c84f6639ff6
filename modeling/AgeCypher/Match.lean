import AgeCypher.State
/-!
# The `MATCH` pattern transform

`transform_match_pattern` compiles each path of the pattern: every element gets
an expression (`transform_cypher_node`, `transform_cypher_edge`), is registered
as a transform entity, and may add a property constraint; a named path adds a
`_agtype_build_path` column; the path's join quals and the edge-uniqueness call
are collected into the `WHERE` of the query.

A re-used variable is looked up three ways, in this order: the target list
(`findTarget`), PostgreSQL's column namespace (`colNameToVar`), and the chain-wide
registry (`find_variable`).
-/

namespace AgeCypher

/-- The type oid of `graphid`. -/
def graphidOid : Nat := 7002

/-- Where the C code reads through a null pointer or a pointer of the wrong node
type: the model stops the compilation. -/
def crash {α : Type} : TransformM α :=
  throw ⟨.internalError, "invalid pointer dereference"⟩

@[simp] theorem crash_run {α : Type} (s : CypherParseState) :
    (crash : TransformM α).run s = .error ⟨.internalError, "invalid pointer dereference"⟩ := rfl

/-- `search_label_name_graph_cache(label, graph_oid)`: the kind of a label. -/
def searchLabelNameGraphCache (label : String) : TransformM (Option LabelKind) := do
  pure ((← get).global.catalog.lookup label)

@[simp] theorem searchLabelNameGraphCache_run (label : String) (s : CypherParseState) :
    (searchLabelNameGraphCache label).run s = .ok (s.global.catalog.lookup label, s) := rfl

/-- The range-table entry of a label relation, under the alias `aliasname`. -/
def labelRte (aliasname label : String) : LabelKind → RangeTblEntry
  | .vertex => ⟨some aliasname, ["id", "properties"], [graphidOid, agtypeOid], .relation label .vertex⟩
  | .edge => ⟨some aliasname, ["id", "start_id", "end_id", "properties"],
      [graphidOid, graphidOid, graphidOid, agtypeOid], .relation label .edge⟩

/-- `findTarget`: the first non-junk target entry named `resname`. -/
def findTarget (targetList : List TargetEntry) (resname : String) : Option TargetEntry :=
  targetList.find? fun te => !te.resjunk && te.resname == some resname

/-- The column name of a `ColName`. -/
def ColName.name : ColName → String
  | .id => "id"
  | .startId => "start_id"
  | .endId => "end_id"
  | .properties => "properties"

/-- The relation-visible entry aliased `refname`, searched level by level from
the current one. -/
def refnameLookup (st : CypherParseState) (refname : String) : Option RangeTblEntry :=
  ((st.pNamespace :: st.parentNamespaces).findSome? fun ns =>
    ns.find? fun item => item.relVisible && item.rte.aliasname == some refname).map (·.rte)

/-- `refnameRangeTblEntry`. -/
def refnameRangeTblEntry (refname : String) : TransformM (Option RangeTblEntry) := do
  pure (refnameLookup (← get) refname)

@[simp] theorem refnameRangeTblEntry_run (refname : String) (s : CypherParseState) :
    (refnameRangeTblEntry refname).run s = .ok (refnameLookup s refname, s) := rfl

/-- `transformExpr` of the two-field `ColumnRef` `refname.col`: the entry
aliased `refname` must be visible as a relation (`errorMissingRTE` otherwise). -/
def transformQualifiedColumnRef (refname : String) : TransformM Unit := do
  match ← refnameRangeTblEntry refname with
  | some _ => pure ()
  | none => ereport .undefinedTable ("missing FROM-clause entry for table \"" ++ refname ++ "\"")

/-- A field of a join qual: `make_qual` reads a `Var` entity through an accessor
function, and any other entity through the `ColumnRef` `entity_name.col`. -/
def transformFieldRef (f : Field) : TransformM Unit := do
  match f.entity.expr with
  | some (.var ..) | some (.systemVar ..) => pure ()
  | _ => transformQualifiedColumnRef (f.entity.name.getD "")

/-- The fields a qual reads. -/
def Qual.fields : Qual → List Field
  | .atom (.eq l r) => [l, r]
  | .atom (.isIn l rs) => l :: rs
  | .atom (.labelFilter f _) => [f]
  | .orAnd first second => (first ++ second).flatMap fun
      | .eq l r => [l, r]
      | .isIn l rs => l :: rs
      | .labelFilter f _ => [f]
  | .edgeUniqueness ids => ids
  | .propertyConstraint e _ => [⟨e, .properties⟩]

/-- `transformExpr(pstate, AND(quals), EXPR_KIND_WHERE)` on the join quals:
every column reference must resolve. -/
def transformQuals (quals : List Qual) : TransformM Unit :=
  (quals.flatMap Qual.fields).forM transformFieldRef

/-- Whether `transformFieldRef` resolves a field in state `s`: a `Var` does,
anything else needs a relation-visible entry named after the entity. -/
def Field.resolves (s : CypherParseState) (f : Field) : Bool :=
  match f.entity.expr with
  | some (.var ..) | some (.systemVar ..) => true
  | _ => (refnameLookup s (f.entity.name.getD "")).isSome

/-- The error of a `ColumnRef` whose table is not found. -/
def missingFromEntry (refname : String) : CypherError :=
  ⟨.undefinedTable, "missing FROM-clause entry for table \"" ++ refname ++ "\""⟩

/-- The error of a field that does not resolve. -/
def Field.missingEntry (f : Field) : CypherError := missingFromEntry (f.entity.name.getD "")

theorem transformQualifiedColumnRef_run (refname : String) (s : CypherParseState) :
    (transformQualifiedColumnRef refname).run s =
      if (refnameLookup s refname).isSome then .ok ((), s) else .error (missingFromEntry refname) := by
  simp only [transformQualifiedColumnRef, StateT.run_bind, refnameRangeTblEntry_run, except_ok_bind]
  cases refnameLookup s refname <;> rfl

theorem transformFieldRef_run (f : Field) (s : CypherParseState) :
    (transformFieldRef f).run s = if f.resolves s then .ok ((), s) else .error f.missingEntry := by
  unfold transformFieldRef Field.resolves
  split
  · rfl
  · rfl
  · exact transformQualifiedColumnRef_run _ s

/-- `transformQuals` is a check on the state: it fails at the first field that does
not resolve. -/
theorem transformQuals_run (quals : List Qual) (s : CypherParseState) :
    (transformQuals quals).run s =
      match (quals.flatMap Qual.fields).find? (!·.resolves s) with
      | none => .ok ((), s)
      | some f => .error f.missingEntry := by
  unfold transformQuals
  induction quals.flatMap Qual.fields with
  | nil => rfl
  | cons f fs ih =>
    rw [List.forM_cons', StateT.run_bind, transformFieldRef_run, List.find?_cons]
    cases f.resolves s <;> simp [ih]

/-- What tells `transform_cypher_node` and `transform_cypher_edge` apart: the
kind of label and its default, the kind an existing entity must have, the error
texts, whether the columns of a new relation are visible to names, and the
expression built over the relation. -/
structure ElementKind where
  labelKind : LabelKind
  defaultLabel : String
  isDefaultLabel : Option String → Bool
  entityType : TransformEntityType
  wrongKindMessage : String → String
  whereMessage : String → String
  colsVisible : Bool
  makeExpr : Nat → Expr

/-- The vertex element of `transform_cypher_node`: its relation is added with
`addRTEtoQuery(pstate, rte, true, true, true)`, columns visible. -/
def vertexElement : ElementKind where
  labelKind := .vertex
  defaultLabel := agDefaultLabelVertex
  isDefaultLabel := isDefaultLabelVertex
  entityType := .vertex
  wrongKindMessage l := "label " ++ l ++ " is for edges, not vertices"
  whereMessage n := "variable `" ++ n ++ "` does not exist"
  colsVisible := true
  makeExpr := .vertex

/-- The edge element of `transform_cypher_edge`: its relation is added with
`addRTEtoQuery(pstate, rte, true, true, false)`, columns not visible. -/
def edgeElement : ElementKind where
  labelKind := .edge
  defaultLabel := agDefaultLabelEdge
  isDefaultLabel := isDefaultLabelEdge
  entityType := .edge
  wrongKindMessage l := "label " ++ l ++ " is for vertices, not edges"
  whereMessage n := "variable " ++ n ++ " does not exist"
  colsVisible := false
  makeExpr := .edge

/-- The label part of `transform_cypher_node` and `transform_cypher_edge`: the
default label, or an existing label of the element's kind. -/
def transformElementLabel (k : ElementKind) : Option String → TransformM String
  | none => pure k.defaultLabel
  | some l => do
    match ← searchLabelNameGraphCache l with
    | none => ereport .featureNotSupported ("label " ++ l ++ " does not exists")
    | some kind =>
      if kind = k.labelKind then pure l
      else ereport .featureNotSupported (k.wrongKindMessage l)

/-- The tail of `transform_cypher_node` and `transform_cypher_edge`: a new
relation under the element's name, and a column for the element. -/
def addElementRelation (k : ElementKind) (name label : String) (targetList : List TargetEntry) :
    TransformM (Expr × String × List TargetEntry) := do
  let rte := labelRte name label k.labelKind
  let rtIndex ← addRangeTableEntry rte
  addRTEtoQuery rtIndex rte true true k.colsVisible
  let resno ← nextResno
  let expr := k.makeExpr rtIndex
  return (expr, name, targetList ++ [{ expr, resno, resname := some name, resjunk := false }])

/-- The variable part of `transform_cypher_node` and `transform_cypher_edge`: a
name the namespace resolves, or that names an entry of the target list, is the
existing binding; otherwise (outside a `WHERE`) the element gets a new relation
under its name or a default alias. Returns the expression, the element's name
and the target list. -/
def transformElementVariable (k : ElementKind) (name : Option String) (label : String)
    (hasProps : Bool) (targetList : List TargetEntry) :
    TransformM (Expr × String × List TargetEntry) := do
  if let some name := name then
    let te := findTarget targetList name
    -- also search for the variable from a previous transform
    if let some expr ← colNameToVar name then return (expr, name, targetList)
    if let some te := te then
      if let some entity := findVariable (← get).entities name then
        if entity.type != k.entityType || !k.isDefaultLabel (some label) || hasProps then
          ereport .featureNotSupported ("variable " ++ name ++ " already exists")
      return (te.expr, name, targetList)
    if (← get).pExprKind == .where then
      ereport .featureNotSupported (k.whereMessage name)
  let name ← match name with
    | some n => pure n
    | none => getNextDefaultAlias
  addElementRelation k name label targetList

@[simp] theorem addElementRelation_run (k : ElementKind) (name label : String)
    (targetList : List TargetEntry) (s : CypherParseState) :
    (addElementRelation k name label targetList).run s =
      .ok ((k.makeExpr (s.pRtable.length + 1), name, targetList ++
          [{ expr := k.makeExpr (s.pRtable.length + 1), resno := s.pNextResno, resname := some name,
             resjunk := false }]),
        { s with
          pRtable := s.pRtable ++ [labelRte name label k.labelKind]
          pJoinlist := s.pJoinlist ++ [s.pRtable.length + 1]
          pNamespace := s.pNamespace ++
            [⟨s.pRtable.length + 1, labelRte name label k.labelKind, true, k.colsVisible⟩]
          pNextResno := s.pNextResno + 1 }) := rfl

/-- The three ways `transformElementVariable` ends. -/
theorem transformElementVariable_cases {k : ElementKind} {name : Option String} {label : String}
    {hasProps : Bool} {targetList : List TargetEntry} {s s' : CypherParseState}
    {r : Expr × String × List TargetEntry}
    (h : (transformElementVariable k name label hasProps targetList).run s = .ok (r, s')) :
    (∃ n e, name = some n ∧
      colNameToVarLevels n 0 (s.pNamespace :: s.parentNamespaces) = .ok (some e) ∧
      r = (e, n, targetList) ∧ s' = s) ∨
    (∃ n te, name = some n ∧
      colNameToVarLevels n 0 (s.pNamespace :: s.parentNamespaces) = .ok none ∧
      findTarget targetList n = some te ∧ r = (te.expr, n, targetList) ∧ s' = s) ∨
    (∃ n s₁, ((name = some n ∧
        colNameToVarLevels n 0 (s.pNamespace :: s.parentNamespaces) = .ok none ∧
        findTarget targetList n = none ∧ s.pExprKind ≠ .where ∧ s₁ = s) ∨
      (name = none ∧ n = defaultAliasName s.defaultAliasNum ∧
        s₁ = { s with defaultAliasNum := s.defaultAliasNum + 1 })) ∧
      (addElementRelation k n label targetList).run s₁ = .ok (r, s')) := by
  cases name with
  | none =>
    refine .inr (.inr ⟨_, _, .inr ⟨rfl, rfl, rfl⟩, ?_⟩)
    simpa only [transformElementVariable, StateT.run_bind, getNextDefaultAlias_run,
      except_ok_bind] using h
  | some n =>
    simp only [transformElementVariable, StateT.run_bind, colNameToVar_run] at h
    cases hc : colNameToVarLevels n 0 (s.pNamespace :: s.parentNamespaces) with
    | error e => simp [hc] at h
    | ok v =>
      simp only [hc, Bool.or_eq_true, bne_iff_ne, ne_eq, Bool.not_eq_eq_eq_not, Bool.not_true,
        bind_pure_comp, map_pure, beq_iff_eq, pure_bind, bind_map_left, except_ok_bind] at h
      cases v with
      | some e =>
        simp only [StateT.run_pure, except_pure, Except.ok.injEq, Prod.mk.injEq] at h
        exact .inl ⟨n, e, rfl, hc, h.1.symm, h.2.symm⟩
      | none =>
        cases ht : findTarget targetList n with
        | some te =>
          refine .inr (.inl ⟨n, te, rfl, hc, ht, ?_⟩)
          simp only [ht, StateT.run_bind, StateT.run_get, except_pure, except_ok_bind] at h
          split at h
          · split at h
            · simp at h
            · simpa [eq_comm] using h
          · simpa [eq_comm] using h
        | none =>
          refine .inr (.inr ⟨n, s, ?_⟩)
          simp only [ht, StateT.run_bind, StateT.run_get, except_pure, except_ok_bind] at h
          split at h
          · simp at h
          · exact ⟨.inl ⟨rfl, hc, ht, ‹_›, rfl⟩, h⟩

/-- `transform_cypher_node`: the expression of a vertex element (none when it is
left out of the join tree), the node with its label and name filled in, and the
target list. -/
def transformCypherNode (node : CypherNode) (targetList : List TargetEntry)
    (outputNode : Bool) : TransformM (Option Expr × CypherNode × List TargetEntry) := do
  let label ← transformElementLabel vertexElement node.label
  let node := { node with label := some label }
  if outputNode then
    let (expr, name, targetList) ←
      transformElementVariable vertexElement node.name label node.props.isSome targetList
    pure (some expr, { node with name := some name }, targetList)
  else pure (none, node, targetList)

/-- `transform_cypher_edge`: the expression of an edge element, the relationship
with its label and name filled in, and the target list. -/
def transformCypherEdge (rel : CypherRelationship) (targetList : List TargetEntry) :
    TransformM (Expr × CypherRelationship × List TargetEntry) := do
  if rel.varlen then
    ereport .featureNotSupported "variable length relationships are not supported"
  else
    let label ← transformElementLabel edgeElement rel.label
    let (expr, name, targetList) ←
      transformElementVariable edgeElement rel.name label rel.props.isSome targetList
    pure (expr, { rel with label := some label, name := some name }, targetList)

/-- `create_property_constraint_function`: the properties of the entity, read from
the range-table entry of its name (`find_rte`) or else through `transformExpr` of
the `ColumnRef` `name.properties`, whatever the entity's expression; checked
against the map. -/
def createPropertyConstraintFunction (entity : TransformEntity) (props : CypherProps) :
    TransformM Qual := do
  let name := entity.name.getD ""
  if (← findRte name).isNone then
    transformQualifiedColumnRef name
  pure (.propertyConstraint entity props)

/-- Register the property constraint of an element, if it has one. -/
def addPropertyConstraint (entity : TransformEntity) : Option CypherProps → TransformM Unit
  | none => pure ()
  | some props => do
    let q ← createPropertyConstraintFunction entity props
    modify fun st => { st with propertyConstraintQuals := st.propertyConstraintQuals ++ [q] }

/-- `transform_match_entities`: the elements at even positions are read as nodes,
those at odd positions as relationships. -/
def transformMatchEntities (path : CypherPath) :
    Bool → List PathElement → List TargetEntry → TransformM (List TransformEntity × List TargetEntry)
  | _, [], targetList => pure ([], targetList)
  | true, .node node :: rest, targetList => do
    let (expr, node', targetList) ←
      transformCypherNode node targetList (includeNodeInJoinTree path node)
    let entity ← registerEntity (.node node') expr
    addPropertyConstraint entity node'.props
    let (entities, targetList) ← transformMatchEntities path false rest targetList
    pure (entity :: entities, targetList)
  | false, .rel rel :: rest, targetList => do
    let (expr, rel', targetList) ← transformCypherEdge rel targetList
    let entity ← registerEntity (.rel rel') (some expr)
    addPropertyConstraint entity rel'.props
    let (entities, targetList) ← transformMatchEntities path true rest targetList
    pure (entity :: entities, targetList)
  | _, _ :: _, _ => crash

/-- `transform_match_create_path_variable`. -/
def transformMatchCreatePathVariable (name : String) (entities : List TransformEntity) :
    TransformM TargetEntry :=
  if entities.length < 3 then
    ereport .featureNotSupported "paths consist of alternating vertices and edges."
  else do
    let args := ExprList.ofList (entities.map fun e => e.expr.getD .nullConst)
    let resno ← nextResno
    pure { expr := .buildPath args, resno, resname := some name, resjunk := false }

/-- `transform_match_path`: the quals of one path. -/
def transformMatchPath (path : CypherPath) (targetList : List TargetEntry) :
    TransformM (List Qual × List TargetEntry) := do
  let (entities, targetList) ← transformMatchEntities path true path.path targetList
  let targetList ← match path.varName with
    | some name => do pure (targetList ++ [← transformMatchCreatePathVariable name entities])
    | none => pure targetList
  let some joinQuals := makePathJoinQuals entities | crash
  let duplicateEdgeQual := if entities.length > 3 then [preventDuplicateEdges entities] else []
  pure (joinQuals ++ duplicateEdgeQual, targetList)

/-- The paths of a pattern, in order, with their quals concatenated. -/
def transformMatchPaths : List CypherPath → List TargetEntry →
    TransformM (List Qual × List TargetEntry)
  | [], targetList => pure ([], targetList)
  | path :: paths, targetList => do
    let (qual, targetList) ← transformMatchPath path targetList
    let (quals, targetList) ← transformMatchPaths paths targetList
    pure (qual ++ quals, targetList)

/-- `transform_match_pattern`: the target list and the `FromExpr` of the query. -/
def transformMatchPattern (pattern : List CypherPath) (targetList : List TargetEntry) :
    TransformM Query := do
  let (quals, targetList) ← transformMatchPaths pattern targetList
  transformQuals quals
  let st ← get
  let expr := if quals.isEmpty && st.propertyConstraintQuals.isEmpty then none
    else some (JoinTreeQual.matchPattern quals st.propertyConstraintQuals)
  pure { targetList, rtable := st.pRtable, joinlist := st.pJoinlist, quals := expr }

end AgeCypher
