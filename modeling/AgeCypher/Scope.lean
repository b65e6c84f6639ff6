import AgeCypher.CreateSteps
/-!
# How a pattern variable is resolved

`transform_cypher_node` and `transform_cypher_edge` look a variable up three
ways: in PostgreSQL's column namespace (`colNameToVar`), in the target list of
the clause (`findTarget`), and in the chain-wide registry (`find_variable`). The
namespace wins, and it returns the column without any check; only a target-list
hit is checked against the registry, and the registry entry it checks is the
first of that name ever registered, whether or not it is still in scope.
-/

namespace AgeCypher

section Resolution

variable {k : ElementKind} {label : String} {hasProps : Bool} {targetList : List TargetEntry}
  {s : CypherParseState} {n : String} {e : Expr}

/-- A name the namespace resolves is the element's expression: neither the kind
of what it names, nor the element's label, nor its property map is checked. -/
theorem transformElementVariable_of_resolved
    (hvar : colNameToVarLevels n 0 (s.pNamespace :: s.parentNamespaces) = .ok (some e)) :
    (transformElementVariable k (some n) label hasProps targetList).run s =
      .ok ((e, n, targetList), s) := by
  simp [transformElementVariable, hvar]

/-- A vertex element whose variable the namespace resolves compiles to that
column, whatever label (of an existing vertex label) and property map it has. -/
theorem transformCypherNode_of_resolved {node : CypherNode} (hname : node.name = some n)
    (hlabel : ∀ l, node.label = some l → s.global.catalog.lookup l = some .vertex)
    (hvar : colNameToVarLevels n 0 (s.pNamespace :: s.parentNamespaces) = .ok (some e)) :
    (transformCypherNode node targetList true).run s =
      .ok ((some e, { node with label := some (node.label.getD agDefaultLabelVertex) }, targetList), s) := by
  cases hl : node.label with
  | none =>
    simp [transformCypherNode, transformElementLabel, hl, hname, hvar, transformElementVariable,
      vertexElement]
  | some l =>
    simp [transformCypherNode, transformElementLabel, searchLabelNameGraphCache, hl, hlabel l hl,
      vertexElement, hname, hvar, transformElementVariable]

/-- `MATCH (a) MATCH (a:L)`: the second occurrence of `a` carries a label, yet the
chain compiles to a query that reads `a` from the previous clause, with no
relation and no filter for the label. -/
theorem matchLabelledReference_compiles :
    ∃ q, (transformCypherClause true
        [.cypherMatch ⟨[⟨none, [.node ⟨some "a", some "L", none⟩]⟩], none⟩,
         .cypherMatch ⟨[⟨none, [.node ⟨some "a", none, none⟩]⟩], none⟩]).run'
        (rootParseState ⟨[("L", .vertex)], [], [], [], 0⟩) = .ok q ∧
      q.rtable.map (·.kind) = [.subquery] ∧ q.quals = none := by
  simp only [transformCypherClause, transformCypherMatch, transformCypherClauseWithWhere,
    transformCypherMatchPattern, List.isEmpty_cons, Bool.false_eq_true, ↓reduceIte, List.isEmpty_nil,
    transformMatchPattern, transformMatchPaths, transformMatchPath, transformMatchEntities,
    transformCypherNode, transformElementLabel, vertexElement, includeNodeInJoinTree,
    Option.isSome_none, Option.isSome_some, Bool.or_true, Bool.or_false, transformElementVariable,
    findTarget, TransformEntity.type, Bool.or_eq_true, bne_iff_ne, ne_eq, Bool.not_eq_eq_eq_not,
    Bool.not_true, String.reduceAppend, beq_iff_eq, addPropertyConstraint, makePathJoinQuals,
    gt_iff_lt, transformPrevCypherClause, transformCypherClauseAsSubquery, subqueryRte,
    checkNameSpaceConflicts, Option.getD_some, expandRelAttrs, rootParseState, StateT.run'_eq,
    run_bind, run_get, except_ok_bind, StateT.run_modify, except_pure, analyzeCypherClause_run,
    advanceTransformEntitiesToNextClause, makeCypherParsestate, run_pure, colNameToVar_run,
    colNameToVarLevels, Nat.zero_add, registerEntity_run, makeTransformEntity, List.append_nil,
    transformQuals_run, Field.resolves, refnameLookup, ↓List.findSome?_cons, TransformEntity.name,
    colNameToVarLevel, Nat.reduceAdd, List.find?_nil, addRangeTableEntry_run, List.nil_append,
    except_map_ok, reduceCtorEq, addElementRelation_run, labelRte, graphidOid, agtypeOid,
    List.length_nil, List.length_cons, Nat.reduceLT, ↓List.find?_cons, Option.some_beq_some,
    Bool.true_and, List.flatMap_nil, List.map_cons, List.map_nil, ↓List.filter_cons, Bool.not_false,
    List.filter_nil, addRTEtoQuery_run, List.zip_cons_cons, List.zip_nil_right, List.enum_cons,
    List.enumFrom_nil, List.mapM_cons, List.mapM_nil, nextResno_run, searchLabelNameGraphCache_run,
    List.lookup_cons, beq_self_eq_true, Bool.and_self, scanRTEForColumn, systemColumnByName, systemColumns, SystemColumn.name, Option.map_none', List.cons_append,
    Bool.false_and, Except.ok.injEq, exists_eq_left', and_true]

end Resolution

section PathVariable

/-- A named path whose elements compile gets its column, after the columns of its
elements and under the path's name, whatever columns the target list already
has: nothing looks the name up. -/
theorem transformMatchPath_named {path : CypherPath} {name : String} {tl tl₁ : List TargetEntry}
    {s s₁ : CypherParseState} {es : List TransformEntity} {quals : List Qual}
    (hname : path.varName = some name)
    (hentities : (transformMatchEntities path true path.path tl).run s = .ok ((es, tl₁), s₁))
    (hlen : 3 ≤ es.length) (hquals : makePathJoinQuals es = some quals) :
    ∃ te, (transformMatchPath path tl).run s =
        .ok ((quals ++ (if es.length > 3 then [preventDuplicateEdges es] else []), tl₁ ++ [te]),
          { s₁ with pNextResno := s₁.pNextResno + 1 }) ∧
      te.resno = s₁.pNextResno ∧ te.resname = some name ∧ te.resjunk = false := by
  refine ⟨{ expr := .buildPath (ExprList.ofList (es.map fun e => e.expr.getD .nullConst)),
            resno := s₁.pNextResno, resname := some name, resjunk := false }, ?_, rfl, rfl, rfl⟩
  simp [transformMatchPath, hentities, hname, transformMatchCreatePathVariable, Nat.not_lt.2 hlen,
    hquals]

/-- `MATCH p = (p)-[e]->(b)`: the path variable takes the name of a vertex of its
own path, and the compiled query has two visible columns named `p`. -/
theorem matchPathNamedLikeItsVertex_twoColumns :
    ∃ q, (transformCypherClause true
        [.cypherMatch ⟨[⟨some "p", [.node ⟨some "p", none, none⟩,
          .rel ⟨some "e", none, none, false, .right⟩, .node ⟨some "b", none, none⟩]⟩], none⟩]).run'
        (rootParseState ⟨[], [], [], [], 0⟩) = .ok q ∧
      (q.targetList.filter fun te => !te.resjunk && te.resname == some "p").length = 2 := by
  simp only [transformCypherClause, transformCypherMatch, transformCypherClauseWithWhere,
    transformCypherMatchPattern, List.isEmpty_nil, ↓reduceIte, transformMatchPattern,
    transformMatchPaths, transformMatchPath, transformMatchEntities, transformCypherNode,
    transformElementLabel, vertexElement, includeNodeInJoinTree, Option.isSome_some, Bool.or_self,
    Option.isSome_none, Bool.or_false, transformElementVariable, findTarget, findVariable,
    TransformEntity.name, TransformEntity.type, isDefaultLabelVertex, Bool.or_eq_true, bne_iff_ne,
    ne_eq, Bool.not_eq_eq_eq_not, Bool.not_true, String.reduceAppend, beq_iff_eq,
    addPropertyConstraint, transformCypherEdge, Bool.false_eq_true, edgeElement,
    transformMatchCreatePathVariable, makePathJoinQuals, gt_iff_lt, rootParseState, StateT.run'_eq,
    run_bind, run_pure, colNameToVar_run, colNameToVarLevels, except_pure, Nat.zero_add,
    except_ok_bind, beq_self_eq_true, reduceCtorEq, registerEntity_run, makeTransformEntity,
    List.append_nil, transformQuals_run, Field.resolves, refnameLookup, ↓List.findSome?_cons,
    run_get, colNameToVarLevel, except_map_ok, List.find?_nil, addElementRelation_run,
    List.nil_append, labelRte, graphidOid, agtypeOid, List.length_nil, Nat.reduceAdd,
    ↓List.find?_cons, Bool.not_false, Option.some_beq_some, String.reduceBEq, Bool.and_false,
    scanRTEForColumn, systemColumnByName, systemColumns, SystemColumn.name, Option.map_none', List.zip_cons_cons, List.zip_nil_right, List.enum_cons, List.enumFrom_cons,
    List.enumFrom_nil, ↓List.filter_cons, List.filter_nil, List.cons_append, List.length_cons,
    Nat.lt_irrefl, List.map_cons, Option.getD_some, List.map_nil, nextResno_run, joinLoop,
    joinLoopBody, joinLoopInit, lookAhead, makeJoinConditionForEdge, makeDirectedEdgeJoinConditions,
    TransformEntity.inJoinTree, joinToEntity, labelFilterQuals, Option.isNone_none, Bool.and_true,
    Bool.true_and, List.flatMap_cons, Qual.fields, List.flatMap_nil, Option.map_some',
    List.isEmpty_cons, Bool.false_and, Except.ok.injEq, exists_eq_left', Bool.and_self]

end PathVariable

section CreateExisting

/-- A named vertex of a `CREATE` that the registry knows is an existing vertex,
read from the first column of its name, or from position -1 when the target list
has no such column: the registry is not checked against the target list. -/
theorem transformCreateCypherNode_registered {tl : List TargetEntry} {node : CypherNode}
    {s s' : CypherParseState} {r : CypherTargetNode × CypherNode × List TargetEntry}
    {name : String} {e : TransformEntity}
    (hname : node.name = some name) (hfind : findVariable s.entities name = some e)
    (h : (transformCreateCypherNode tl node).run s = .ok (r, s')) :
    e.type = .vertex ∧ r.1.flags.insert = false ∧
      r.1.flags.existingVariableDeclaredSameClause = e.declaredInCurrentClause ∧
      r.1.tuplePosition =
        ((tl.find? (·.resname == some name)).map fun te => (te.resno : Int)).getD (-1) := by
  rcases transformCreateCypherNode_cases h with ⟨n, e', hn, hf, htype, h⟩ | ⟨hnone, -⟩
  · obtain rfl : name = n := Option.some.inj (hname.symm.trans hn)
    obtain rfl : e = e' := Option.some.inj (hfind.symm.trans hf)
    obtain ⟨-, -, -, rfl⟩ := transformCreateCypherExistingNode_spec h
    exact ⟨htype, rfl, rfl, getTargetEntryResno_fst tl _⟩
  · simp [hnone name hname] at hfind

/-- `MATCH (a) WITH a AS b CREATE (a)`: `a` is out of scope after the `WITH`, yet
the registry still knows it, so the `CREATE` emits an existing vertex (no insert)
read from position -1. -/
theorem createProjectedAwayVariable_positionMinusOne :
    ∃ q, (transformCypherClause true
        [.cypherCreate [⟨none, [.node ⟨some "a", none, none⟩]⟩],
         .cypherWith ⟨false, [⟨some "b", .columnRef "a"⟩], [], none, none, none⟩,
         .cypherMatch ⟨[⟨none, [.node ⟨some "a", none, none⟩]⟩], none⟩]).run'
        (rootParseState ⟨[], [], [], [], 0⟩) = .ok q ∧
      ∃ te ∈ q.targetList, ∃ paths flags, te.expr = .clauseFunction (.create ⟨paths, flags⟩) ∧
        ∃ path ∈ paths, ∃ tn ∈ path.targetNodes, tn.variableName = some "a" ∧
          tn.flags.insert = false ∧ tn.tuplePosition = -1 := by
  simp only [transformCypherClause, transformCypherCreate, List.isEmpty_cons, Bool.false_eq_true,
    ↓reduceIte, transformCypherWith, transformCypherClauseWithWhere, transformCypherReturn,
    transformCypherMatch, transformCypherMatchPattern, List.isEmpty_nil, transformMatchPattern,
    transformMatchPaths, transformMatchPath, transformMatchEntities, transformCypherNode,
    transformElementLabel, vertexElement, includeNodeInJoinTree, Option.isSome_none,
    Option.isSome_some, Bool.or_true, Bool.or_false, transformElementVariable, findTarget,
    findVariable, TransformEntity.name, TransformEntity.type, isDefaultLabelVertex, Bool.or_eq_true,
    bne_iff_ne, ne_eq, Bool.not_eq_eq_eq_not, Bool.not_true, String.reduceAppend, beq_iff_eq,
    addPropertyConstraint, makePathJoinQuals, gt_iff_lt, transformCypherClauseAsSubquery,
    subqueryRte, checkNameSpaceConflicts, Option.getD_some, transformCypherItemList,
    transformCypherItems, transformCypherItem, transformCypherExpr, resolveVariable,
    Option.isNone_some, Bool.not_false, Bool.and_true, CypherExpr.hasAgg, transformCypherOrderBy,
    transformGroupClause, transformCypherLimit, transformPrevCypherClause, expandRelAttrs,
    parseCheckAggregates, Expr.hasAggref, List.any_cons, List.any_nil, List.isEmpty_nil, Expr.type,
    or_false, if_false,
    transformCypherCreatePattern, transformCypherCreatePath, transformCypherCreatePathElements,
    transformCreateCypherNode, transformCreateCypherExistingNode, ageVarnameCreateNullValue,
    ageDefaultVarnamePrefix, ite_not, ageVarnameCreateClause, rootParseState, StateT.run'_eq,
    run_bind, run_get, except_ok_bind, StateT.run_modify, except_pure, analyzeCypherClause_run,
    advanceTransformEntitiesToNextClause, makeCypherParsestate, run_pure, colNameToVar_run,
    colNameToVarLevels, Nat.zero_add, nextResno_run, Bool.or_self, addRangeTableEntry_run,
    List.nil_append, reduceCtorEq, beq_self_eq_true, registerEntity_run, makeTransformEntity,
    List.append_nil, transformQuals_run, Field.resolves, refnameLookup, ↓List.findSome?_cons,
    colNameToVarLevel, Nat.reduceAdd, List.find?_nil, except_map_ok, addElementRelation_run,
    labelRte, graphidOid, agtypeOid, List.length_nil, List.length_cons, Nat.reduceLT,
    ↓List.find?_cons, Option.some_beq_some, Bool.true_and, List.flatMap_nil, List.map_cons,
    List.map_nil, Nat.lt_irrefl, ↓List.filter_cons, List.filter_nil, addRTEtoQuery_run,
    scanRTEForColumn, systemColumnByName, systemColumns, SystemColumn.name, Option.map_none', List.zip_cons_cons, List.zip_nil_right, List.enum_cons, List.enumFrom_nil,
    transformGroupClauseLoop, List.mapM_cons, List.mapM_nil, getTargetEntryResno, String.reduceBEq,
    Int.reduceNeg, List.cons_append, Except.ok.injEq, exists_and_right, exists_eq_left',
    List.mem_cons, exists_eq_or_imp, exists_false, false_and, Expr.clauseFunction.injEq,
    ClausePlan.create.injEq, CypherCreateTargetNodes.mk.injEq, exists_and_left, exists_eq',
    and_true, true_or, or_true]

/-- `MATCH (a), (b) WITH b AS b CREATE (a)`: the `CREATE` query has no column
named `a`, yet its plan records an existing vertex `a` at position -1, an entry
the query does not have. -/
theorem createUnscopedVertex_addressesNoColumn :
    ∃ q, (transformCypherClause true
        [.cypherCreate [⟨none, [.node ⟨some "a", none, none⟩]⟩],
         .cypherWith ⟨false, [⟨some "b", .columnRef "b"⟩], [], none, none, none⟩,
         .cypherMatch ⟨[⟨none, [.node ⟨some "a", none, none⟩]⟩, ⟨none, [.node ⟨some "b", none, none⟩]⟩],
           none⟩]).run'
        (rootParseState ⟨[], [], [], [], 0⟩) = .ok q ∧
      (∀ te ∈ q.targetList, te.resname ≠ some "a") ∧
      ∃ te ∈ q.targetList, ∃ paths flags, te.expr = .clauseFunction (.create ⟨paths, flags⟩) ∧
        ∃ path ∈ paths, ∃ tn ∈ path.targetNodes, tn.variableName = some "a" ∧
          tn.flags.insert = false ∧ tn.tuplePosition = -1 := by
  simp only [transformCypherClause, transformCypherCreate, List.isEmpty_cons, Bool.false_eq_true,
    ↓reduceIte, transformCypherWith, transformCypherClauseWithWhere, transformCypherReturn,
    transformCypherMatch, transformCypherMatchPattern, List.isEmpty_nil, transformMatchPattern,
    transformMatchPaths, transformMatchPath, transformMatchEntities, transformCypherNode,
    transformElementLabel, vertexElement, includeNodeInJoinTree, Option.isSome_none,
    Option.isSome_some, Bool.or_true, Bool.or_false, transformElementVariable, findTarget,
    findVariable, TransformEntity.name, TransformEntity.type, isDefaultLabelVertex, Bool.or_eq_true,
    bne_iff_ne, ne_eq, Bool.not_eq_eq_eq_not, Bool.not_true, String.reduceAppend, beq_iff_eq,
    addPropertyConstraint, makePathJoinQuals, gt_iff_lt, transformCypherClauseAsSubquery,
    subqueryRte, checkNameSpaceConflicts, Option.getD_some, transformCypherItemList,
    transformCypherItems, transformCypherItem, transformCypherExpr, resolveVariable,
    Option.isNone_some, Bool.not_false, Bool.and_true, CypherExpr.hasAgg, transformCypherOrderBy,
    transformGroupClause, transformCypherLimit, transformPrevCypherClause, expandRelAttrs,
    parseCheckAggregates, Expr.hasAggref, List.any_cons, List.any_nil, List.isEmpty_nil, Expr.type,
    or_false, if_false,
    transformCypherCreatePattern, transformCypherCreatePath, transformCypherCreatePathElements,
    transformCreateCypherNode, transformCreateCypherExistingNode, ageVarnameCreateNullValue,
    ageDefaultVarnamePrefix, ite_not, ageVarnameCreateClause, rootParseState, StateT.run'_eq,
    run_bind, run_get, except_ok_bind, StateT.run_modify, except_pure, analyzeCypherClause_run,
    advanceTransformEntitiesToNextClause, makeCypherParsestate, run_pure, colNameToVar_run,
    colNameToVarLevels, Nat.zero_add, nextResno_run, Bool.or_self, addRangeTableEntry_run,
    List.nil_append, reduceCtorEq, beq_self_eq_true, registerEntity_run, makeTransformEntity,
    List.append_nil, transformQuals_run, Field.resolves, refnameLookup, ↓List.findSome?_cons,
    colNameToVarLevel, Nat.reduceAdd, List.find?_nil, except_map_ok, addElementRelation_run,
    labelRte, graphidOid, agtypeOid, List.length_nil, List.length_cons, Nat.reduceLT,
    ↓List.find?_cons, Option.some_beq_some, Bool.true_and, List.flatMap_nil, List.map_cons,
    List.map_nil, Nat.lt_irrefl, ↓List.filter_cons, List.filter_nil, addRTEtoQuery_run,
    scanRTEForColumn, systemColumnByName, systemColumns, SystemColumn.name, Option.map_none',
    List.zip_cons_cons, List.zip_nil_right, List.enum_cons, List.enumFrom_cons, List.enumFrom_nil,
    transformGroupClauseLoop, List.mapM_cons, List.mapM_nil, getTargetEntryResno, String.reduceBEq,
    Int.reduceNeg, List.cons_append, Except.ok.injEq, exists_and_right, exists_eq_left',
    List.mem_cons, exists_eq_or_imp, exists_false, false_and, Expr.clauseFunction.injEq,
    ClausePlan.create.injEq, CypherCreateTargetNodes.mk.injEq, exists_and_left, exists_eq',
    and_true, true_or, or_true, forall_eq_or_imp, forall_eq, List.not_mem_nil, false_implies,
    implies_true, Option.some.injEq, String.reduceEq, not_false_eq_true, and_self, true_and, false_or,
    exists_eq_left]

end CreateExisting

end AgeCypher
