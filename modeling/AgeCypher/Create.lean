import AgeCypher.Items
/-!
# The `CREATE` pattern transform

`transform_cypher_create_pattern` turns every element of every path into a
`cypher_target_node` of the plan the executor interprets. A named vertex that
`find_variable` finds in the registry is an existing vertex, read from the
column of its name (`get_target_entry_resno`); any other vertex, and every edge,
is inserted, its properties computed in a new column and its value left to a
placeholder column the executor fills in.
-/

namespace AgeCypher

/-- `PREV_CYPHER_CLAUSE_ALIAS`. -/
def prevCypherClauseAlias : String := "_"

/-- `AGE_VARNAME_CREATE_CLAUSE`. -/
def ageVarnameCreateClause : String := ageDefaultVarnamePrefix ++ "create_clause"

/-- `AGE_VARNAME_CREATE_NULL_VALUE`. -/
def ageVarnameCreateNullValue : String := ageDefaultVarnamePrefix ++ "create_null_value"

/-- `AGE_VARNAME_DELETE_CLAUSE`. -/
def ageVarnameDeleteClause : String := ageDefaultVarnamePrefix ++ "delete_clause"

/-- `AGE_VARNAME_SET_CLAUSE`. -/
def ageVarnameSetClause : String := ageDefaultVarnamePrefix ++ "set_clause"

/-- `label_exists` then `create_label`: the label gets a relation of the given
kind unless one of that name exists. -/
def ensureLabel (label : String) (kind : LabelKind) : TransformM Unit :=
  modify fun st =>
    if (st.global.catalog.lookup label).isSome then st
    else { st with global.catalog := st.global.catalog ++ [(label, kind)] }

/-- `parserOpenTable` and `addRangeTableEntryForRelation(pstate, rel, NULL, ...)`:
the label relation joins the range table (for the insert permission) under no
alias; it is in no namespace. -/
def addLabelRelation (label : String) (kind : LabelKind) : TransformM Unit := do
  let kind := ((← get).global.catalog.lookup label).getD kind
  let _ ← addRangeTableEntry { labelRte label label kind with aliasname := none }

/-- `get_target_entry_resno`: the resno of the first entry named `name`, whose
expression gets a volatile wrapper; -1 when there is none. -/
def getTargetEntryResno : List TargetEntry → String → Int × List TargetEntry
  | [], _ => (-1, [])
  | te :: targetList, name =>
    if te.resname == some name then (te.resno, { te with expr := .volatileWrapper te.expr } :: targetList)
    else
      let (resno, targetList) := getTargetEntryResno targetList name
      (resno, te :: targetList)

/-- The resno `get_target_entry_resno` returns: that of the first entry named
`name`, -1 when there is none. -/
theorem getTargetEntryResno_fst (targetList : List TargetEntry) (name : String) :
    (getTargetEntryResno targetList name).1 =
      ((targetList.find? (·.resname == some name)).map fun te => (te.resno : Int)).getD (-1) := by
  induction targetList with
  | nil => rfl
  | cons te tl ih =>
    by_cases hte : te.resname = some name <;> simp [getTargetEntryResno, hte, ih]

/-- `placeholder_target_entry`: a volatile null the executor replaces. -/
def placeholderTargetEntry (name : String) : TransformM TargetEntry := do
  let resno ← nextResno
  pure { expr := .volatileWrapper .nullConst, resno, resname := some name, resjunk := false }

/-- `cypher_create_properties`: the property map, else the column default of the
label relation's `properties` attribute, under a volatile wrapper. -/
def cypherCreateProperties (relation : String) (props : Option CypherProps)
    (type : TransformEntityType) : TransformM Expr := do
  let properties ← (match props, type with
    | some .param, _ =>
      ereport .featureNotSupported "properties in a CREATE clause as a parameter is not supported"
    | some (.map id), _ => pure (Expr.propertyMap id)
    | none, .vertex => pure (.columnDefault ⟨relation, 2⟩)
    | none, .edge => pure (.columnDefault ⟨relation, 4⟩))
  pure (.volatileWrapper properties)

/-- `variable_exists`: a column of the previous clause carries the name. -/
def variableExists (name : String) : TransformM Bool := do
  match ← findRte prevCypherClauseAlias with
  | some (rtIndex, rte) =>
    match scanRTEForColumn 0 rtIndex rte name with
    | .ok id => pure id.isSome
    | .error e => throw e
  | none => pure false

/-- `transform_create_cypher_existing_node`: the vertex is read from the column of
its name. -/
def transformCreateCypherExistingNode (targetList : List TargetEntry)
    (declaredInCurrentClause : Bool) (name : String) (node : CypherNode) :
    TransformM (CypherTargetNode × CypherNode × List TargetEntry) :=
  if node.props.isSome then
    ereport .featureNotSupported
      "previously declared nodes in a create clause cannot have properties"
  else if node.label.isSome then
    ereport .featureNotSupported "previously declared variables cannot have a label"
  else
    let (tuplePosition, targetList) := getTargetEntryResno targetList name
    pure ({ type := .vertex, flags := { existingVariableDeclaredSameClause := declaredInCurrentClause },
            dir := none, labelName := none, variableName := some name, tuplePosition,
            propAttrNum := 0, idExpr := none, relid := none }, node, targetList)

/-- `transform_create_cypher_new_node`: a vertex to insert, with its label
(created if missing), its property column and, if named, its placeholder. -/
def transformCreateCypherNewNode (targetList : List TargetEntry) (node : CypherNode) :
    TransformM (CypherTargetNode × CypherNode × List TargetEntry) := do
  let labelName := node.label.getD ""
  let label := node.label.getD agDefaultLabelVertex
  let node := { node with label := some label }
  ensureLabel label .vertex
  addLabelRelation label .vertex
  let aliasname ← getNextDefaultAlias
  let resno ← nextResno
  let props ← cypherCreateProperties label node.props .vertex
  let targetList := targetList ++ [{ expr := props, resno, resname := some aliasname, resjunk := false }]
  let rel : CypherTargetNode :=
    { type := .vertex, flags := { insert := true }, dir := none, labelName := some labelName,
      variableName := none, tuplePosition := 0, propAttrNum := (resno : Int) - 1,
      idExpr := some ⟨label, 1⟩, relid := some label }
  match node.name with
  | none => pure (rel, node, targetList)
  | some name => do
    let te ← placeholderTargetEntry name
    pure ({ rel with variableName := some name, tuplePosition := te.resno,
                     flags := { rel.flags with isVar := true } }, node, targetList ++ [te])

/-- `transform_create_cypher_node`: existing if `find_variable` finds a vertex of
that name in the registry, an error if it finds an edge, new otherwise. -/
def transformCreateCypherNode (targetList : List TargetEntry) (node : CypherNode) :
    TransformM (CypherTargetNode × CypherNode × List TargetEntry) := do
  match node.name with
  | some name =>
    match findVariable (← get).entities name with
    | some entity =>
      if entity.type != .vertex then
        ereport .featureNotSupported ("variable " ++ name ++ " already exists")
      else transformCreateCypherExistingNode targetList entity.declaredInCurrentClause name node
    | none => transformCreateCypherNewNode targetList node
  | none => transformCreateCypherNewNode targetList node

/-- The variable part of `transform_create_cypher_edge`: a named edge must not
be a column of the previous clause, and gets a placeholder column. Returns the
variable name, the tuple position and the target list. -/
def createEdgeVariable (targetList : List TargetEntry) :
    Option String → TransformM (Option String × Int × List TargetEntry)
  | some name => do
    if ← variableExists name then
      ereport .featureNotSupported ("variable " ++ name ++ " already exists")
    else
      let te ← placeholderTargetEntry name
      pure (some name, (te.resno : Int), targetList ++ [te])
  | none => pure (none, 0, targetList)

/-- `transform_create_cypher_edge`: an edge to insert. Its name is checked only
against the columns of the previous clause. -/
def transformCreateCypherEdge (targetList : List TargetEntry) (edge : CypherRelationship) :
    TransformM (CypherTargetNode × List TargetEntry) := do
  let (variableName, tuplePosition, targetList) ← createEdgeVariable targetList edge.name
  if edge.dir == .none then
    ereport .featureNotSupported "only directed relationships are allowed in CREATE"
  else
    let some label := edge.label
      | ereport .featureNotSupported "relationships must be specify a label in CREATE."
    ensureLabel label .edge
    addLabelRelation label .edge
    let aliasname ← getNextDefaultAlias
    let resno ← nextResno
    let props ← cypherCreateProperties label edge.props .edge
    pure ({ type := .edge, flags := { insert := true, isVar := variableName.isSome },
            dir := some edge.dir, labelName := some label, variableName, tuplePosition,
            propAttrNum := (resno : Int) - 1, idExpr := some ⟨label, 1⟩, relid := some label },
          targetList ++ [{ expr := props, resno, resname := some aliasname, resjunk := false }])

/-- The element loop of `transform_cypher_create_path`: each element becomes a
target node and is registered, with no expression. -/
def transformCypherCreatePathElements (inPath : Bool) :
    List PathElement → List TargetEntry → TransformM (List CypherTargetNode × List TargetEntry)
  | [], targetList => pure ([], targetList)
  | .node node :: rest, targetList => do
    let (rel, node, targetList) ← transformCreateCypherNode targetList node
    let rel := if inPath then { rel with flags.inPathVar := true } else rel
    let _ ← registerEntity (.node node) none
    let (rels, targetList) ← transformCypherCreatePathElements inPath rest targetList
    pure (rel :: rels, targetList)
  | .rel edge :: rest, targetList => do
    let (rel, targetList) ← transformCreateCypherEdge targetList edge
    let rel := if inPath then { rel with flags.inPathVar := true } else rel
    let _ ← registerEntity (.rel edge) none
    let (rels, targetList) ← transformCypherCreatePathElements inPath rest targetList
    pure (rel :: rels, targetList)

/-- `transform_cypher_create_path`: a named path gets a placeholder column. -/
def transformCypherCreatePath (targetList : List TargetEntry) (path : CypherPath) :
    TransformM (CypherCreatePath × List TargetEntry) := do
  let (nodes, targetList) ←
    transformCypherCreatePathElements path.varName.isSome path.path targetList
  match path.varName with
  | none => pure (⟨nodes, 0⟩, targetList)
  | some name =>
    if nodes.length < 3 then
      ereport .featureNotSupported "paths consist of alternating vertices and edges."
    else do
      let te ← placeholderTargetEntry name
      pure (⟨nodes, te.resno⟩, targetList ++ [te])

/-- `transform_cypher_create_pattern`. -/
def transformCypherCreatePattern : List CypherPath → List TargetEntry →
    TransformM (List CypherCreatePath × List TargetEntry)
  | [], targetList => pure ([], targetList)
  | path :: pattern, targetList => do
    let (ccp, targetList) ← transformCypherCreatePath targetList path
    let (paths, targetList) ← transformCypherCreatePattern pattern targetList
    pure (ccp :: paths, targetList)

end AgeCypher
