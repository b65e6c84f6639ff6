import AgeCypher.Expr
/-!
# Transform entities and the entity registry

`transform_entity` records how a pattern element was compiled. Every element of
every `MATCH` and `CREATE` pattern is registered in `cpstate->entities`; the
registry lives for the whole clause chain and is searched by `find_variable`.
The palloc'd record is identified by `id`, so that two registrations of equal
field values stay distinct, as two pointers do.
-/

namespace AgeCypher

/-- `enum transform_entity_type`. -/
inductive TransformEntityType where
  | vertex
  | edge
  deriving DecidableEq, Repr

/-- The union `entity` of a `transform_entity`: the parse node it was built from. -/
inductive EntityNode where
  | node (n : CypherNode)
  | rel (r : CypherRelationship)
  deriving DecidableEq, Repr

/-- `transform_entity`. The `type` field and `in_join_tree` are the values
`make_transform_entity` derives from the union and from `expr != NULL`. -/
structure TransformEntity where
  id : Nat
  entity : EntityNode
  expr : Option Expr
  declaredInCurrentClause : Bool
  deriving DecidableEq, Repr

namespace TransformEntity

/-- `entity->type`. -/
def type (e : TransformEntity) : TransformEntityType :=
  match e.entity with
  | .node _ => .vertex
  | .rel _ => .edge

/-- `entity->in_join_tree`, set to `expr != NULL` by `make_transform_entity`. -/
def inJoinTree (e : TransformEntity) : Bool := e.expr.isSome

/-- The variable name of the parse node (`node->name` or `rel->name`). -/
def name (e : TransformEntity) : Option String :=
  match e.entity with
  | .node n => n.name
  | .rel r => r.name

/-- The label of the parse node. -/
def label (e : TransformEntity) : Option String :=
  match e.entity with
  | .node n => n.label
  | .rel r => r.label

end TransformEntity

/-- `make_transform_entity`, with `id` the identity of the new record. -/
def makeTransformEntity (id : Nat) (node : EntityNode) (expr : Option Expr) :
    TransformEntity :=
  { id, entity := node, expr, declaredInCurrentClause := true }

/-- `INCLUDE_NODE_IN_JOIN_TREE(path, node)`. -/
def includeNodeInJoinTree (path : CypherPath) (node : CypherNode) : Bool :=
  path.varName.isSome || node.name.isSome || node.props.isSome

/-- `find_variable`: the first registered entity whose variable is `name`. -/
def findVariable (entities : List TransformEntity) (name : String) :
    Option TransformEntity :=
  entities.find? fun e => e.name == some name

/-- `advance_transform_entities_to_next_clause`. -/
def advanceTransformEntitiesToNextClause (entities : List TransformEntity) :
    List TransformEntity :=
  entities.map fun e => { e with declaredInCurrentClause := false }

@[simp] theorem makeTransformEntity_id (id : Nat) (node : EntityNode) (expr : Option Expr) :
    (makeTransformEntity id node expr).id = id := rfl

@[simp] theorem makeTransformEntity_declared (id : Nat) (node : EntityNode)
    (expr : Option Expr) : (makeTransformEntity id node expr).declaredInCurrentClause = true :=
  rfl

@[simp] theorem advance_append (l₁ l₂ : List TransformEntity) :
    advanceTransformEntitiesToNextClause (l₁ ++ l₂) =
      advanceTransformEntitiesToNextClause l₁ ++ advanceTransformEntitiesToNextClause l₂ :=
  List.map_append _ _ _

end AgeCypher
