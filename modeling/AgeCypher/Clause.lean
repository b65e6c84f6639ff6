import AgeCypher.Update
/-!
# The clause chain

`transform_cypher_clause` compiles the last clause of a chain; every clause
compiles its predecessor first, as a subquery in a child parse state
(`transform_prev_cypher_clause`), whose visible columns it reads through the
range-table entry `_`. A `WHERE` makes the clause itself such a subquery and
filters it; the sub-patterns of a `WHERE` are compiled in the filtering query's
own state, each as a `MATCH` subquery added to its range table.

A chain is given from its last clause back: `c :: prev` is clause `c` with
predecessor chain `prev`. Whether a clause is the last one (`clause->next` is
null) is the flag `terminal`.
-/

namespace AgeCypher

/-- `addRangeTableEntryForSubquery` under the alias `_`: the columns are the
visible entries of the subquery's target list. -/
def subqueryRte (query : Query) : RangeTblEntry :=
  let visible := query.targetList.filter (!·.resjunk)
  { aliasname := some prevCypherClauseAlias, colnames := visible.map (·.resname.getD ""),
    coltypes := visible.map (·.expr.type), kind := .subquery }

/-- `checkNameSpaceConflicts` against the one new item, visible as a relation. -/
def checkNameSpaceConflicts (rte : RangeTblEntry) : TransformM Unit := do
  if (← get).pNamespace.any fun item => item.relVisible && item.rte.aliasname == rte.aliasname then
    ereport .duplicateAlias
      ("table name \"" ++ rte.aliasname.getD "" ++ "\" specified more than once")
  else pure ()

/-- `transform_cypher_clause_as_subquery`: the clause is compiled in a child
state and becomes the range-table entry `_`, whose columns are visible. The
compiled query is returned with the entry (`rte->subquery`). -/
def transformCypherClauseAsSubquery (transform : TransformM Query) :
    TransformM (Nat × RangeTblEntry × Query) := do
  let oldExprKind := (← get).pExprKind
  (if oldExprKind == .none then modify fun st => { st with pExprKind := .fromSubselect }
   else pure ())
  let query ← analyzeCypherClause transform
  modify fun st => { st with pExprKind := oldExprKind }
  let rte := subqueryRte query
  let rtIndex ← addRangeTableEntry rte
  (if rtIndex > 1 then checkNameSpaceConflicts rte else pure ())
  addRTEtoQuery rtIndex rte true false true
  pure (rtIndex, rte, query)

/-- `transform_prev_cypher_clause` followed by `expandRelAttrs`: the columns of
the previous clause, as the first entries of the target list. -/
def transformPrevCypherClause (prev : TransformM Query) : TransformM (List TargetEntry) := do
  let (rtIndex, rte, _) ← transformCypherClauseAsSubquery prev
  expandRelAttrs rtIndex rte

/-- `transform_cypher_match_pattern`: the previous clause's columns, then the
pattern. -/
def transformCypherMatchPattern (prev : Option (TransformM Query)) (pattern : List CypherPath) :
    TransformM Query := do
  let targetList ← (match prev with
    | some prev => transformPrevCypherClause prev
    | none => pure [])
  transformMatchPattern pattern targetList

/-- `makeTargetListFromRTE`: a column for every visible entry of the subquery,
as `expandRelAttrs` builds them. -/
def makeTargetListFromRTE (rtIndex : Nat) (rte : RangeTblEntry) : TransformM (List TargetEntry) :=
  expandRelAttrs rtIndex rte

/-- `transform_cypher_sub_pattern`: the pattern as a `MATCH` clause with no
predecessor and no `WHERE`, which `transform_cypher_clause` compiles with
`transform_cypher_match_pattern` (`transformCypherClause_subPattern_match`). -/
def transformCypherSubPattern (pattern : List CypherPath) : TransformM Query := do
  let (rtIndex, rte, _) ← transformCypherClauseAsSubquery (transformCypherMatchPattern none pattern)
  let targetList ← makeTargetListFromRTE rtIndex rte
  let st ← get
  pure { targetList, rtable := st.pRtable, joinlist := st.pJoinlist }

/-- `cypher_parse_sub_analyze`: the sub-pattern node is handed to
`transform_cypher_clause` with the caller's own parse state (the plain
`ParseState` it makes is freed unused), which dispatches it to
`transform_cypher_sub_pattern`. -/
def cypherParseSubAnalyze (pattern : List CypherPath) : TransformM Query :=
  transformCypherSubPattern pattern

/-- Modelled from the spec: the sub-patterns of a `WHERE`, in the order the
expression sub-compiler meets them (`transform_SubLink` in `cypher_expr.c`, not
under `src/`), each analysed by `cypher_parse_sub_analyze` in the state compiling
the `WHERE`. -/
def transformSubPatterns : List (List CypherPath) → TransformM Unit
  | [] => pure ()
  | pattern :: patterns => do
    let _ ← cypherParseSubAnalyze pattern
    transformSubPatterns patterns

/-- `transform_cypher_expr(cpstate, where, EXPR_KIND_WHERE)` (in `cypher_expr.c`):
the predicate, whose sub-patterns are compiled under the `WHERE` kind. -/
def transformWhere (w : WhereExpr) : TransformM JoinTreeQual := do
  let oldExprKind := (← get).pExprKind
  modify fun st => { st with pExprKind := .where }
  transformSubPatterns w.subPatterns
  modify fun st => { st with pExprKind := oldExprKind }
  pure (.cypherWhere w)

/-- `transform_cypher_clause_with_where`: with a `WHERE`, the clause becomes the
subquery `_` of a query that passes its columns on and filters them. -/
def transformCypherClauseWithWhere (transform : TransformM Query) :
    Option WhereExpr → TransformM Query
  | none => transform
  | some w => do
    let targetList ← transformPrevCypherClause transform
    let qual ← transformWhere w
    let st ← get
    pure { targetList, rtable := st.pRtable, joinlist := st.pJoinlist, quals := some qual }

/-- `transform_cypher_return`. -/
def transformCypherReturn (prev : Option (TransformM Query)) (self : CypherReturn) :
    TransformM Query := do
  (match prev with
    | some prev => do let _ ← transformCypherClauseAsSubquery prev
    | none => pure ())
  let (targetList, groupClause) ← transformCypherItemList self.items
  let (sortClause, targetList) ← transformCypherOrderBy self.orderBy [] targetList
  let (groupClause, targetList) ← transformGroupClause groupClause targetList sortClause
  let (distinctClause, targetList) ←
    (if self.distinct then transformDistinctClause targetList sortClause
     else pure ([], targetList))
  let limitOffset ← transformCypherLimit self.skip "SKIP"
  let limitCount ← transformCypherLimit self.limit "LIMIT"
  let st ← get
  let query : Query :=
    { targetList, rtable := st.pRtable, joinlist := st.pJoinlist, sortClause, groupClause,
      distinctClause, limitOffset, limitCount }
  parseCheckAggregates query
  pure query

/-- `transform_cypher_with`: a `RETURN` with the same items, under the `WHERE`. -/
def transformCypherWith (prev : Option (TransformM Query)) (self : CypherWith) :
    TransformM Query :=
  transformCypherClauseWithWhere
    (transformCypherReturn prev ⟨self.distinct, self.items, self.orderBy, self.skip, self.limit⟩)
    self.where

/-- `transform_cypher_match`. -/
def transformCypherMatch (prev : Option (TransformM Query)) (self : CypherMatch) :
    TransformM Query :=
  transformCypherClauseWithWhere (transformCypherMatchPattern prev self.pattern) self.where

/-- `transform_cypher_create`: the previous clause's columns, a null column, the
pattern's columns, and the column of `_cypher_create_clause` over the plan. -/
def transformCypherCreate (prev : Option (TransformM Query)) (terminal : Bool)
    (pattern : List CypherPath) : TransformM Query := do
  let targetList ← (match prev with
    | some prev => transformPrevCypherClause prev
    | none => pure [])
  let resno ← nextResno
  let targetList := targetList ++
    [{ expr := .nullConst, resno, resname := some ageVarnameCreateNullValue, resjunk := false }]
  let (paths, targetList) ← transformCypherCreatePattern pattern targetList
  let plan := ClausePlan.create ⟨paths, { previousClause := prev.isSome, terminal }⟩
  let resno ← nextResno
  let st ← get
  let tle : TargetEntry :=
    { expr := .clauseFunction plan, resno, resname := some ageVarnameCreateClause, resjunk := false }
  pure { targetList := targetList ++ [tle], rtable := st.pRtable, joinlist := st.pJoinlist }

/-- `transform_cypher_set`, for `SET` and `REMOVE`: one item only. -/
def transformCypherSet (prev : Option (TransformM Query)) (terminal : Bool) (self : CypherSet) :
    TransformM Query := do
  let clauseName := if self.isRemove then updateClauseRemove else updateClauseSet
  let some prev := prev
    | ereport .featureNotSupported (clauseName ++ " cannot be the first clause in a Cypher query")
  let targetList ← transformPrevCypherClause prev
  if self.items.length != 1 then
    ereport .featureNotSupported
      (clauseName ++ " clause does not yet support updating more than one property")
  else
    let (setItems, targetList) ← transformCypherUpdateItemList
      (if self.isRemove then transformCypherRemoveItem else transformCypherSetItem) self.items targetList
    let plan := ClausePlan.update ⟨setItems, { terminal }, clauseName⟩
    let resno ← nextResno
    let st ← get
    let tle : TargetEntry :=
      { expr := .clauseFunction plan, resno, resname := some ageVarnameSetClause, resjunk := false }
    pure { targetList := targetList ++ [tle], rtable := st.pRtable, joinlist := st.pJoinlist }

/-- `transform_cypher_delete`. -/
def transformCypherDelete (prev : Option (TransformM Query)) (terminal : Bool)
    (self : CypherDelete) : TransformM Query := do
  let some prev := prev
    | ereport .featureNotSupported "DELETE cannot be the first clause in a Cypher query"
  let targetList ← transformPrevCypherClause prev
  let (deleteItems, targetList) ← transformCypherDeleteItemList self.exprs targetList
  let plan := ClausePlan.delete ⟨deleteItems, { terminal }, self.detach⟩
  let resno ← nextResno
  let st ← get
  let tle : TargetEntry :=
    { expr := .clauseFunction plan, resno, resname := some ageVarnameDeleteClause, resjunk := false }
  pure { targetList := targetList ++ [tle], rtable := st.pRtable, joinlist := st.pJoinlist }

/-- `transform_cypher_clause`: the last clause of the chain, its predecessors
compiled by the clause's own transform. -/
def transformCypherClause (terminal : Bool) : List CypherClause → TransformM Query
  | [] => crash
  | clause :: prevClauses =>
    let prev := if prevClauses.isEmpty then none else some (transformCypherClause false prevClauses)
    match clause with
    | .cypherReturn self => transformCypherReturn prev self
    | .cypherWith self => transformCypherWith prev self
    | .cypherMatch self => transformCypherMatch prev self
    | .cypherCreate pattern => transformCypherCreate prev terminal pattern
    | .cypherSet self => transformCypherSet prev terminal self
    | .cypherDelete self => transformCypherDelete prev terminal self
    | .cypherSubPattern pattern => transformCypherSubPattern pattern

/-- The clause `transform_cypher_sub_pattern` builds compiles as the pattern of a
`MATCH` with nothing before it. -/
theorem transformCypherClause_subPattern_match (terminal : Bool) (pattern : List CypherPath) :
    transformCypherClause terminal [.cypherMatch ⟨pattern, none⟩] =
      transformCypherMatchPattern none pattern := rfl

/-- The parse state a chain is compiled from: a graph's label catalog and type
cache, nothing allocated. -/
def rootParseState (global : GlobalState) : CypherParseState :=
  { global }

end AgeCypher
