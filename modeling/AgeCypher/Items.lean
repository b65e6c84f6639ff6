import AgeCypher.Match
/-!
# Projection items, sort and group lists, `SKIP` and `LIMIT`

The item-list compiler (`cypher_item.c`) and the expression compiler
(`cypher_expr.c`) are not under `src/`; they are modelled from the spec and from
the calls `cypher_clause.c` makes to them. The sort and group helpers are
PostgreSQL's (`addTargetToSortList`, `targetIsInSortList`, `assignSortGroupRef`,
`get_sort_group_operators`, `transformDistinctClause`) and AGE's copy
`add_target_to_group_list`.

A target entry is handed around in C by pointer and updated in place (its
`ressortgroupref`, its expression when an unknown literal is coerced); here it is
its position in the target list, and an update rewrites that position.
-/

namespace AgeCypher

/-- `int8` (`bigint`). -/
def int8Oid : Nat := 20

/-- Whether the expression contains an aggregate (`cpstate->exprHasAgg`). -/
def CypherExpr.hasAgg : CypherExpr → Bool
  | .columnRef _ => false
  | .value v => v.hasAgg

/-- `FigureColname`: a bare variable is named after itself. -/
def CypherExpr.figureColname : CypherExpr → String
  | .columnRef name => name
  | .value v => v.colname

/-- A variable an expression reads: `colNameToVar`, an error when it is unknown. -/
def resolveVariable (name : String) : TransformM Expr := do
  match ← colNameToVar name with
  | some v => pure v
  | none => ereport .undefinedColumn ("could not find rte for " ++ name)

/-- `transform_cypher_expr` (in `cypher_expr.c`, not under `src/`): modelled from
the spec. The expression kind matters only to the sub-patterns of a `WHERE`,
which `transformWhere` compiles. -/
def transformCypherExpr : CypherExpr → TransformM Expr
  | .columnRef name => resolveVariable name
  | .value v => do pure (.cypherValue v (ExprList.ofList (← v.refs.mapM resolveVariable)))

/-- `transform_cypher_item` (in `cypher_item.c`): the target entry of an
expression, named by the alias, else by `FigureColname` unless it is junk. -/
def transformCypherItem (node : CypherExpr) (expr : Option Expr) (colname : Option String)
    (resjunk : Bool) : TransformM TargetEntry := do
  let expr ← (match expr with
    | some e => pure e
    | none => transformCypherExpr node)
  let colname := if colname.isNone && !resjunk then some node.figureColname else colname
  let resno ← nextResno
  pure { expr, resno, resname := colname, resjunk }

/-- The loop of `transform_cypher_item_list`: the entries, the non-aggregate item
expressions, and whether some item has an aggregate. -/
def transformCypherItems : List ResTarget → TransformM (List TargetEntry × List CypherExpr × Bool)
  | [] => pure ([], [], false)
  | item :: items => do
    let te ← transformCypherItem item.val none item.name false
    let (tes, group, hasAgg) ← transformCypherItems items
    pure (te :: tes, if item.val.hasAgg then group else item.val :: group, item.val.hasAgg || hasAgg)

/-- `transform_cypher_item_list` (in `cypher_item.c`): the target list and the
auto-group list, which is empty unless some item has an aggregate. -/
def transformCypherItemList (items : List ResTarget) :
    TransformM (List TargetEntry × List CypherExpr) := do
  let (tes, group, hasAgg) ← transformCypherItems items
  pure (tes, if hasAgg then group else [])

/-- `strip_implicit_coercions`. -/
def Expr.stripImplicitCoercions : Expr → Expr
  | .implicitCoercion e _ => e.stripImplicitCoercions
  | e => e

/-- The entry at a position of the target list. -/
def entryAt (targetList : List TargetEntry) (i : Nat) : TransformM TargetEntry :=
  match targetList[i]? with
  | some te => pure te
  | none => crash

/-- `find_target_list_entry`: the position of the first entry whose expression,
implicit coercions stripped, is the compiled `node`; a junk entry is appended
when there is none. -/
def findTargetListEntry (node : CypherExpr) (targetList : List TargetEntry) :
    TransformM (Nat × List TargetEntry) := do
  let expr ← transformCypherExpr node
  match targetList.findIdx? (fun te => te.expr.stripImplicitCoercions == expr) with
  | some i => pure (i, targetList)
  | none => do
    let te ← transformCypherItem node (some expr) none true
    pure (targetList.length, targetList ++ [te])

/-- If the entry is an `UNKNOWN` literal, change it to `TEXT`; the entry's type. -/
def coerceUnknownToText (targetList : List TargetEntry) (i : Nat) :
    TransformM (List TargetEntry × Nat) := do
  let te ← entryAt targetList i
  if te.expr.type == unknownOid then
    pure (targetList.set i { te with expr := .implicitCoercion te.expr textOid }, textOid)
  else pure (targetList, te.expr.type)

/-- `get_sort_group_operators`: the operators of the type cache; an error when a
needed one is missing (the type is named by its oid). -/
def getSortGroupOperators (type : Nat) (needLT needEQ needGT : Bool) :
    TransformM TypeCacheEntry := do
  let entry := ((← get).global.typeCache.lookup type).getD ⟨0, 0, 0, false⟩
  if (needLT && entry.ltOpr == 0) || (needGT && entry.gtOpr == 0) then
    ereport .undefinedFunction ("could not identify an ordering operator for type " ++ toString type)
  else if needEQ && entry.eqOpr == 0 then
    ereport .undefinedFunction ("could not identify an equality operator for type " ++ toString type)
  else pure entry

/-- `get_commutator`. -/
def getCommutator (commutators : List (Nat × Nat)) (opno : Nat) : Nat :=
  (commutators.lookup opno).getD 0

/-- `targetIsInSortList(tle, sortop, sortList)`: a clause of the list refers to
the entry (with `sortop` or its commutator, unless `sortop` is `InvalidOid`). -/
def targetIsInSortList (commutators : List (Nat × Nat)) (tle : TargetEntry) (sortop : Nat)
    (sortList : List SortGroupClause) : Bool :=
  tle.ressortgroupref != 0 && sortList.any fun scl =>
    scl.tleSortGroupRef == tle.ressortgroupref &&
      (sortop == 0 || sortop == scl.sortop || sortop == getCommutator commutators scl.sortop)

/-- The largest `ressortgroupref` of a target list. -/
def maxSortGroupRef (targetList : List TargetEntry) : Nat :=
  targetList.foldr (fun te m => Nat.max te.ressortgroupref m) 0

/-- `assignSortGroupRef(tle, tlist)`: the entry's reference, or one past the
largest of the list, which is then written into the entry. -/
def assignSortGroupRef (targetList : List TargetEntry) (i : Nat) :
    TransformM (Nat × List TargetEntry) := do
  let te ← entryAt targetList i
  if te.ressortgroupref != 0 then pure (te.ressortgroupref, targetList)
  else
    let ref := maxSortGroupRef targetList + 1
    pure (ref, targetList.set i { te with ressortgroupref := ref })

/-- `addTargetToSortList` for an `ORDER BY` key of the Cypher grammar (no `USING`,
default `NULLS` placement). -/
def addTargetToSortList (targetList : List TargetEntry) (i : Nat)
    (sortList : List SortGroupClause) (sortBy : SortBy) :
    TransformM (List SortGroupClause × List TargetEntry) := do
  let (targetList, restype) ← coerceUnknownToText targetList i
  let reverse := sortBy.dir == .desc
  let ops ← getSortGroupOperators restype (!reverse) true reverse
  let sortop := bif reverse then ops.gtOpr else ops.ltOpr
  let tle ← entryAt targetList i
  if targetIsInSortList (← get).global.commutators tle sortop sortList then
    pure (sortList, targetList)
  else
    let (ref, targetList) ← assignSortGroupRef targetList i
    pure (sortList ++ [⟨ref, ops.eqOpr, sortop, reverse, ops.hashable⟩], targetList)

/-- `transform_cypher_order_by`: each key is found in (or appended to) the target
list, then added to the sort list. -/
def transformCypherOrderBy : List SortBy → List SortGroupClause → List TargetEntry →
    TransformM (List SortGroupClause × List TargetEntry)
  | [], sortList, targetList => pure (sortList, targetList)
  | sortBy :: sortItems, sortList, targetList => do
    let (i, targetList) ← findTargetListEntry sortBy.node targetList
    let (sortList, targetList) ← addTargetToSortList targetList i sortList sortBy
    transformCypherOrderBy sortItems sortList targetList

/-- `add_target_to_group_list` (AGE's copy of PostgreSQL's `addTargetToGroupList`):
a group clause with the default operators of the entry's type, unless one
already refers to the entry. -/
def addTargetToGroupList (targetList : List TargetEntry) (i : Nat)
    (groupList : List SortGroupClause) :
    TransformM (List SortGroupClause × List TargetEntry) := do
  let (targetList, restype) ← coerceUnknownToText targetList i
  let tle ← entryAt targetList i
  if targetIsInSortList (← get).global.commutators tle 0 groupList then
    pure (groupList, targetList)
  else
    let ops ← getSortGroupOperators restype false true false
    let (ref, targetList) ← assignSortGroupRef targetList i
    pure (groupList ++ [⟨ref, ops.eqOpr, ops.ltOpr, false, ops.hashable⟩], targetList)

mutual
/-- `contain_vars_of_level`: a vertex or an edge expression reads the columns of
its relation, at level 0. -/
def Expr.containVarsOfLevel (level : Nat) : Expr → Bool
  | .var levelsUp _ _ _ | .systemVar levelsUp _ _ => levelsUp == level
  | .vertex _ | .edge _ => level == 0
  | .buildPath args => args.containVarsOfLevel level
  | .volatileWrapper e => e.containVarsOfLevel level
  | .cypherValue _ args => args.containVarsOfLevel level
  | .implicitCoercion e _ => e.containVarsOfLevel level
  | .nullConst | .columnDefault _ | .propertyMap _ | .clauseFunction _ => false

/-- `contain_vars_of_level` over an argument list. -/
def ExprList.containVarsOfLevel (level : Nat) : ExprList → Bool
  | .nil => false
  | .cons e es => e.containVarsOfLevel level || es.containVarsOfLevel level
end

mutual
/-- `expression_returns_set`. -/
def Expr.returnsSet : Expr → Bool
  | .cypherValue v args => v.returnsSet || args.returnsSet
  | .buildPath args => args.returnsSet
  | .volatileWrapper e | .implicitCoercion e _ => e.returnsSet
  | .var .. | .systemVar .. | .vertex _ | .edge _ | .nullConst | .columnDefault _ | .propertyMap _
  | .clauseFunction _ => false

/-- `expression_returns_set` over an argument list. -/
def ExprList.returnsSet : ExprList → Bool
  | .nil => false
  | .cons e es => e.returnsSet || es.returnsSet
end

/-- `coerce_type` in assignment context: the same type, an `UNKNOWN` literal, or a
cast the catalog allows in assignment. -/
def canCoerceAssignment (casts : List (Nat × Nat)) (source target : Nat) : Bool :=
  source == target || source == unknownOid || casts.contains (source, target)

/-- `coerce_to_specific_type(pstate, node, targetType, constructName)`: the
expression, cast when its type differs; an error when there is no such cast or
when the expression returns a set. Types are named by their oids. -/
def coerceToSpecificType (node : Expr) (targetType : Nat) (constructName : String) :
    TransformM Expr := do
  let casts := (← get).global.assignmentCasts
  let node ← (if node.type == targetType then pure node
    else if canCoerceAssignment casts node.type targetType then
      pure (.implicitCoercion node targetType)
    else ereport .datatypeMismatch ("argument of " ++ constructName ++ " must be type " ++
      toString targetType ++ ", not type " ++ toString node.type))
  if node.returnsSet then
    ereport .datatypeMismatch ("argument of " ++ constructName ++ " must not return a set")
  else pure node

/-- `transform_cypher_limit`: the expression, coerced to `bigint`, which must not
read a column of the current query. -/
def transformCypherLimit (node : Option CypherExpr) (constructName : String) :
    TransformM (Option Expr) := do
  let some node := node | pure none
  let qual ← transformCypherExpr node
  let qual ← coerceToSpecificType qual int8Oid constructName
  if qual.containVarsOfLevel 0 then
    ereport .invalidColumnReference ("argument of " ++ constructName ++ " must not contain variables")
  else pure (some qual)

/-- The `ORDER BY` part of `transformDistinctClause`: every sort key must be a
visible column. -/
def checkDistinctSortKeys (targetList : List TargetEntry) : List SortGroupClause → TransformM Unit
  | [] => pure ()
  | scl :: sortClause =>
    match targetList.find? (·.ressortgroupref == scl.tleSortGroupRef) with
    | none => ereport .internalError "ORDER/GROUP BY expression not found in targetlist"
    | some tle =>
      if tle.resjunk then
        ereport .invalidColumnReference
          "for SELECT DISTINCT, ORDER BY expressions must appear in select list"
      else checkDistinctSortKeys targetList sortClause

/-- The second loop of `transformDistinctClause`: every visible column from
position `i` on is added to the list. -/
def addDistinctColumns (groupList : List SortGroupClause) (targetList : List TargetEntry) :
    Nat → Nat → TransformM (List SortGroupClause × List TargetEntry)
  | 0, _ => pure (groupList, targetList)
  | n + 1, i => do
    let tle ← entryAt targetList i
    let (groupList, targetList) ←
      (if tle.resjunk then pure (groupList, targetList) else addTargetToGroupList targetList i groupList)
    addDistinctColumns groupList targetList n (i + 1)

/-- `transformDistinctClause(pstate, &targetList, sortClause, false)`: the sort
clauses, then a group clause for every other visible column. -/
def transformDistinctClause (targetList : List TargetEntry) (sortClause : List SortGroupClause) :
    TransformM (List SortGroupClause × List TargetEntry) := do
  checkDistinctSortKeys targetList sortClause
  let (result, targetList) ← addDistinctColumns sortClause targetList targetList.length 0
  if result.isEmpty then
    ereport .featureNotSupported "SELECT DISTINCT must have at least one column"
  else pure (result, targetList)

/-- `transform_group_clause_expr`: the reference of the entry the expression
resolves to, or 0 when the entry was already grouped by this clause list. An
entry that already has a reference and is not grouped yet copies the first sort
clause with that reference; otherwise `add_target_to_group_list` gives it the
default operators of its type. -/
def transformGroupClauseExpr (flatresult : List SortGroupClause) (seenLocal : List Nat)
    (gexpr : CypherExpr) (targetList : List TargetEntry) (sortClause : List SortGroupClause)
    (toplevel : Bool) : TransformM (Nat × List SortGroupClause × List TargetEntry) := do
  let (i, targetList) ← findTargetListEntry gexpr targetList
  let tle ← entryAt targetList i
  let commutators := (← get).global.commutators
  -- `if (!found)`: the default group clause
  let addDefault : TransformM (Nat × List SortGroupClause × List TargetEntry) := do
    let (flatresult, targetList) ← addTargetToGroupList targetList i flatresult
    let tle ← entryAt targetList i
    pure (tle.ressortgroupref, flatresult, targetList)
  if tle.ressortgroupref > 0 then
    if tle.ressortgroupref ∈ seenLocal then pure (0, flatresult, targetList)
    else if targetIsInSortList commutators tle 0 flatresult then
      pure (tle.ressortgroupref, flatresult, targetList)
    else
      match sortClause.find? (·.tleSortGroupRef == tle.ressortgroupref) with
      | some sc =>
        let grpc := if toplevel then sc else { sc with nullsFirst := false }
        pure (tle.ressortgroupref, flatresult ++ [grpc], targetList)
      | none => addDefault
  else addDefault

/-- The loop of `transform_group_clause` over the auto-group list, with the
references already grouped (`seen_local`). -/
def transformGroupClauseLoop (sortClause : List SortGroupClause) :
    List CypherExpr → List SortGroupClause → List Nat → List TargetEntry →
    TransformM (List SortGroupClause × List TargetEntry)
  | [], result, _, targetList => pure (result, targetList)
  | gexpr :: grouplist, result, seenLocal, targetList => do
    let (ref, result, targetList) ←
      transformGroupClauseExpr result seenLocal gexpr targetList sortClause true
    let seenLocal := if ref > 0 then seenLocal ++ [ref] else seenLocal
    transformGroupClauseLoop sortClause grouplist result seenLocal targetList

/-- `transform_group_clause`: the group clauses of the auto-group list. The list
holds item expressions, never a row or a grouping set, so flattening it
(`flatten_grouping_sets`) leaves it as it is. -/
def transformGroupClause (grouplist : List CypherExpr) (targetList : List TargetEntry)
    (sortClause : List SortGroupClause) : TransformM (List SortGroupClause × List TargetEntry) :=
  transformGroupClauseLoop sortClause grouplist [] [] targetList

mutual
/-- Whether an aggregate was compiled into the expression (`p_hasAggs`). -/
def Expr.hasAggref : Expr → Bool
  | .cypherValue v args => v.hasAgg || args.hasAggref
  | .buildPath args => args.hasAggref
  | .volatileWrapper e | .implicitCoercion e _ => e.hasAggref
  | .var .. | .systemVar .. | .vertex _ | .edge _ | .nullConst | .columnDefault _ | .propertyMap _
  | .clauseFunction _ => false

/-- `Expr.hasAggref` over an argument list. -/
def ExprList.hasAggref : ExprList → Bool
  | .nil => false
  | .cons e es => e.hasAggref || es.hasAggref
end

mutual
/-- `check_ungrouped_columns_walker` at the query's own level: the first column of
the query's range table read outside the grouping expressions and outside any
aggregate call. A vertex or an edge expression reads the `id` column of its
relation first. -/
def Expr.ungroupedColumn (groupExprs : List Expr) (e : Expr) : Option Expr :=
  if groupExprs.contains e then none
  else
    match e with
    | .var 0 .. | .systemVar 0 .. => some e
    | .vertex i | .edge i => some (.var 0 i 1 graphidOid)
    | .buildPath args => args.ungroupedColumn groupExprs
    | .volatileWrapper a | .implicitCoercion a _ => a.ungroupedColumn groupExprs
    | .cypherValue v args => if v.hasAgg then none else args.ungroupedColumn groupExprs
    | .var (_ + 1) .. | .systemVar (_ + 1) .. | .nullConst | .columnDefault _ | .propertyMap _
    | .clauseFunction _ => none

/-- `Expr.ungroupedColumn` over an argument list. -/
def ExprList.ungroupedColumn (groupExprs : List Expr) : ExprList → Option Expr
  | .nil => none
  | .cons e es => (e.ungroupedColumn groupExprs).or (es.ungroupedColumn groupExprs)
end

/-- The name of a column in an error message: the entry's alias and the
column's name (`get_rte_attribute_name`). -/
def columnRefName (rtable : List RangeTblEntry) : Expr → String
  | .var _ i j _ =>
    match rtable[i - 1]? with
    | some rte => rte.aliasname.getD "" ++ "." ++ (rte.colnames[j - 1]?).getD ""
    | none => ""
  | .systemVar _ i c =>
    match rtable[i - 1]? with
    | some rte => rte.aliasname.getD "" ++ "." ++ c.name
    | none => ""
  | _ => ""

/-- `parse_check_aggregates` on a query with aggregates or a group clause: every
column the target list reads outside an aggregate must be grouped. -/
def parseCheckAggregates (query : Query) : TransformM Unit :=
  if query.targetList.any (·.expr.hasAggref) || !query.groupClause.isEmpty then
    let groupExprs := query.groupClause.filterMap fun gc =>
      (query.targetList.find? (·.ressortgroupref == gc.tleSortGroupRef)).map (·.expr)
    match query.targetList.findSome? (·.expr.ungroupedColumn groupExprs) with
    | some v =>
      ereport .groupingError ("column \"" ++ columnRefName query.rtable v ++
        "\" must appear in the GROUP BY clause or be used in an aggregate function")
    | none => pure ()
  else pure ()

end AgeCypher
