import AgeCypher.Nodes
/-!
# The relational representation

What the transformer hands to PostgreSQL: expressions, target entries, range
table entries and the serialized clause plans (`cypher_create_target_nodes`,
`cypher_update_information`, `cypher_delete_information`). The plans are kept as
the structures `outNode` serializes; the serializer itself is not modelled.
-/

namespace AgeCypher

/-- `LABEL_KIND_VERTEX` / `LABEL_KIND_EDGE` of the label catalog. -/
inductive LabelKind where
  | vertex
  | edge
  deriving DecidableEq, Repr

/-- Type oids the transformer compares against. -/
def unknownOid : Nat := 705
def textOid : Nat := 25
def agtypeOid : Nat := 7000

/-- `ParseExprKind`, restricted to the kinds this file sets or tests. -/
inductive ParseExprKind where
  | none
  | fromSubselect
  | «where»
  | selectTarget
  | orderBy
  | groupBy
  | offset
  | limit
  | insertTarget
  deriving DecidableEq, Repr

/-- The SQLSTATE of an `ereport(ERROR, ...)`. -/
inductive SqlState where
  | featureNotSupported
  | invalidColumnReference
  | invalidParameterValue
  | ambiguousColumn
  | undefinedColumn
  | undefinedTable
  | undefinedFunction
  | datatypeMismatch
  | groupingError
  | duplicateAlias
  | internalError
  deriving DecidableEq, Repr

/-- An `ereport(ERROR, ...)`: its code and its message text. -/
structure CypherError where
  code : SqlState
  message : String
  deriving DecidableEq, Repr

/-- The system columns of a table without OIDs (`SystemAttributeByName`), which
`scanRTEForColumn` offers for a relation when no user column has the name. -/
inductive SystemColumn where
  | ctid
  | xmin
  | cmin
  | xmax
  | cmax
  | tableoid
  deriving DecidableEq, Repr

/-- The name of a system column. -/
def SystemColumn.name : SystemColumn → String
  | .ctid => "ctid"
  | .xmin => "xmin"
  | .cmin => "cmin"
  | .xmax => "xmax"
  | .cmax => "cmax"
  | .tableoid => "tableoid"

/-- `SysAtt`, without `oid`. -/
def systemColumns : List SystemColumn := [.ctid, .xmin, .cmin, .xmax, .cmax, .tableoid]

/-- `SystemAttributeByName(attname, false)`: the system column of a name. -/
def systemColumnByName (name : String) : Option SystemColumn :=
  systemColumns.find? (·.name == name)

/-- The type of a system column: `tid`, `xid`, `cid` or `oid`. -/
def SystemColumn.type : SystemColumn → Nat
  | .ctid => 27
  | .xmin | .xmax => 28
  | .cmin | .cmax => 29
  | .tableoid => 26

/-- `build_column_default(label_relation, attnum)`. -/
structure ColumnDefault where
  relation : String
  attnum : Nat
  deriving DecidableEq, Repr

/-- `CYPHER_CLAUSE_FLAG_PREVIOUS_CLAUSE` and `CYPHER_CLAUSE_FLAG_TERMINAL`. -/
structure ClauseFlags where
  previousClause : Bool := false
  terminal : Bool := false
  deriving DecidableEq, Repr

/-- The flag bits of a `cypher_target_node`. -/
structure TargetNodeFlags where
  insert : Bool := false
  isVar : Bool := false
  inPathVar : Bool := false
  existingVariableDeclaredSameClause : Bool := false
  deriving DecidableEq, Repr

/-- `cypher_target_node`: one element of a `CREATE` plan. -/
structure CypherTargetNode where
  type : LabelKind
  flags : TargetNodeFlags
  dir : Option CypherRelDir
  labelName : Option String
  variableName : Option String
  tuplePosition : Int
  propAttrNum : Int
  idExpr : Option ColumnDefault
  relid : Option String
  deriving DecidableEq, Repr

/-- `cypher_create_path`. -/
structure CypherCreatePath where
  targetNodes : List CypherTargetNode
  pathAttrNum : Nat
  deriving DecidableEq, Repr

/-- `cypher_create_target_nodes`. -/
structure CypherCreateTargetNodes where
  paths : List CypherCreatePath
  flags : ClauseFlags
  deriving DecidableEq, Repr

/-- `cypher_update_item`. -/
structure CypherUpdateItem where
  varName : String
  entityPosition : Int
  propName : String
  propPosition : Nat
  removeItem : Bool
  deriving DecidableEq, Repr

/-- `cypher_update_information`. -/
structure CypherUpdateInformation where
  setItems : List CypherUpdateItem
  flags : ClauseFlags
  clauseName : String
  deriving DecidableEq, Repr

/-- `cypher_delete_item`. -/
structure CypherDeleteItem where
  varName : String
  entityPosition : Int
  deriving DecidableEq, Repr

/-- `cypher_delete_information`. -/
structure CypherDeleteInformation where
  deleteItems : List CypherDeleteItem
  flags : ClauseFlags
  detach : Bool
  deriving DecidableEq, Repr

/-- The plan serialized into the `Const` argument of a clause function. -/
inductive ClausePlan where
  | create (t : CypherCreateTargetNodes)
  | update (u : CypherUpdateInformation)
  | delete (d : CypherDeleteInformation)
  deriving DecidableEq, Repr

mutual
/-- The expressions this file puts into target entries. -/
inductive Expr where
  /-- `makeVar`: attribute `attNo` of range-table entry `rtIndex`, `levelsUp`
  query levels out, of type `type`. -/
  | var (levelsUp rtIndex attNo type : Nat)
  /-- `makeVar` of a system column (a negative `varattno`) of a relation. -/
  | systemVar (levelsUp rtIndex : Nat) (col : SystemColumn)
  /-- `make_vertex_expr`: `_agtype_build_vertex` over a vertex label relation. -/
  | vertex (rtIndex : Nat)
  /-- `make_edge_expr`: `_agtype_build_edge` over an edge label relation. -/
  | edge (rtIndex : Nat)
  /-- `_agtype_build_path` over the element expressions of a path. -/
  | buildPath (args : ExprList)
  /-- `add_volatile_wrapper`. -/
  | volatileWrapper (arg : Expr)
  /-- `makeNullConst(AGTYPEOID, ...)`. -/
  | nullConst
  /-- A column default of a label relation. -/
  | columnDefault (d : ColumnDefault)
  /-- A property map compiled by the expression sub-compiler. -/
  | propertyMap (id : Nat)
  /-- Any other expression compiled by the expression sub-compiler, over the
  expressions of the variables it reads. -/
  | cypherValue (v : ValueExpr) (args : ExprList)
  /-- An implicit cast inserted by `coerce_type`. -/
  | implicitCoercion (arg : Expr) (type : Nat)
  /-- `_cypher_create_clause`, `_cypher_set_clause` or `_cypher_delete_clause`
  applied to its serialized plan. -/
  | clauseFunction (plan : ClausePlan)
  deriving DecidableEq, Repr

/-- A list of expressions (the argument list of a function call). -/
inductive ExprList where
  | nil
  | cons (head : Expr) (tail : ExprList)
  deriving DecidableEq, Repr
end

/-- `ExprList` from a list. -/
def ExprList.ofList : List Expr → ExprList
  | [] => .nil
  | e :: es => .cons e (ExprList.ofList es)

/-- `exprType`. -/
def Expr.type : Expr → Nat
  | .var _ _ _ t => t
  | .systemVar _ _ c => c.type
  | .cypherValue v _ => v.type
  | .implicitCoercion _ t => t
  | _ => agtypeOid

/-- `TargetEntry`. -/
structure TargetEntry where
  expr : Expr
  resno : Nat
  resname : Option String
  resjunk : Bool
  ressortgroupref : Nat := 0
  deriving DecidableEq, Repr

/-- What a range-table entry ranges over: the previous clause as a subquery, or
a label relation (scanned with its inheritance children). -/
inductive RteKind where
  | subquery
  | relation (label : String) (kind : LabelKind)
  deriving DecidableEq, Repr

/-- `RangeTblEntry`: its alias name, the column names and types of its `eref`. -/
structure RangeTblEntry where
  aliasname : Option String
  colnames : List String
  coltypes : List Nat
  kind : RteKind
  deriving DecidableEq, Repr

/-- `ParseNamespaceItem`: an entry of the range table made visible to names. -/
structure NamespaceItem where
  rtIndex : Nat
  rte : RangeTblEntry
  relVisible : Bool
  colsVisible : Bool
  deriving DecidableEq, Repr

end AgeCypher
