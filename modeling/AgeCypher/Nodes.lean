import Mathlib.Logic.Basic
/-!
# Parse nodes read by `cypher_clause.c`

The clause transformer consumes the tree built by the Cypher grammar: a chain of
clauses, each carrying patterns, item lists and expressions. This module gives
those nodes with exactly the fields the transformer reads. Scalar expressions
belong to the expression sub-compiler (`cypher_expr.c`, not under `src/`); they
appear here only through the shapes the transformer inspects: a bare variable
reference, any other value, and the sub-patterns a `WHERE` expression holds.
-/

namespace AgeCypher

/-- `AG_DEFAULT_LABEL_VERTEX` (declared in `catalog/ag_label.h`, not under `src/`). -/
def agDefaultLabelVertex : String := "_ag_label_vertex"

/-- `AG_DEFAULT_LABEL_EDGE` (declared in `catalog/ag_label.h`, not under `src/`). -/
def agDefaultLabelEdge : String := "_ag_label_edge"

/-- `AGE_DEFAULT_ALIAS_PREFIX` (declared in `parser/cypher_parse_node.h`). -/
def ageDefaultAliasPrefix : String := "_age_default_alias_"

/-- `AGE_DEFAULT_VARNAME_PREFIX` (declared in `parser/cypher_parse_node.h`). -/
def ageDefaultVarnamePrefix : String := "_age_varname_"

/-- `IS_DEFAULT_LABEL_VERTEX`: a non-null label equal to the default vertex label. -/
def isDefaultLabelVertex : Option String → Bool
  | some l => l == agDefaultLabelVertex
  | none => false

@[simp] theorem isDefaultLabelVertex_none : isDefaultLabelVertex none = false := rfl

/-- `IS_DEFAULT_LABEL_EDGE`. -/
def isDefaultLabelEdge : Option String → Bool
  | some l => l == agDefaultLabelEdge
  | none => false

/-- `cypher_rel_dir`. -/
inductive CypherRelDir where
  | none
  | left
  | right
  deriving DecidableEq, Repr

/-- A property map written on a pattern element: a map literal (opaque to this
file) or a query parameter (`cypher_param`). -/
inductive CypherProps where
  | map (id : Nat)
  | param
  deriving DecidableEq, Repr

/-- `cypher_node`: a vertex of a pattern. -/
structure CypherNode where
  name : Option String
  label : Option String
  props : Option CypherProps
  deriving DecidableEq, Repr

/-- `cypher_relationship`: an edge of a pattern; `varlen` records `varlen != NULL`. -/
structure CypherRelationship where
  name : Option String
  label : Option String
  props : Option CypherProps
  varlen : Bool
  dir : CypherRelDir
  deriving DecidableEq, Repr

/-- One cell of `cypher_path->path`. -/
inductive PathElement where
  | node (n : CypherNode)
  | rel (r : CypherRelationship)
  deriving DecidableEq, Repr

/-- `cypher_path`: the optional path variable and the element list. -/
structure CypherPath where
  varName : Option String
  path : List PathElement
  deriving DecidableEq, Repr

/-- An expression other than a bare variable, as far as the transformer sees it:
an identity, the type the expression sub-compiler gives it, whether it is an
aggregate call (an `Aggref`, whose arguments are the variables it reads), whether
it returns a set, the variables it reads, and the column name `FigureColname`
gives it. -/
structure ValueExpr where
  id : Nat
  type : Nat
  hasAgg : Bool
  returnsSet : Bool
  refs : List String
  colname : String
  deriving DecidableEq, Repr

/-- A scalar expression: a one-field `ColumnRef` (a bare variable) or another one. -/
inductive CypherExpr where
  | columnRef (name : String)
  | value (v : ValueExpr)
  deriving DecidableEq, Repr

/-- A `WHERE` expression: the opaque predicate and, in the order the expression
sub-compiler meets them, the patterns of the `cypher_sub_pattern` nodes inside it. -/
structure WhereExpr where
  qual : Nat
  subPatterns : List (List CypherPath)
  deriving DecidableEq, Repr

/-- `ResTarget` of a projection item list: the expression and its alias. -/
structure ResTarget where
  name : Option String
  val : CypherExpr
  deriving DecidableEq, Repr

/-- `SortByDir` as far as the Cypher grammar produces it. -/
inductive SortByDir where
  | default
  | asc
  | desc
  deriving DecidableEq, Repr

/-- `SortBy`: one `ORDER BY` key. -/
structure SortBy where
  node : CypherExpr
  dir : SortByDir
  deriving DecidableEq, Repr

/-- `cypher_return`. -/
structure CypherReturn where
  distinct : Bool
  items : List ResTarget
  orderBy : List SortBy
  skip : Option CypherExpr
  limit : Option CypherExpr
  deriving DecidableEq, Repr

/-- `cypher_with`: a `RETURN` body and an optional `WHERE`. -/
structure CypherWith where
  distinct : Bool
  items : List ResTarget
  orderBy : List SortBy
  skip : Option CypherExpr
  limit : Option CypherExpr
  «where» : Option WhereExpr
  deriving DecidableEq, Repr

/-- `cypher_match`. -/
structure CypherMatch where
  pattern : List CypherPath
  «where» : Option WhereExpr
  deriving DecidableEq, Repr

/-- A field of a `ColumnRef` or an indirection: a `String` value or anything else
(`A_Star`, a subscript). -/
inductive FieldNode where
  | string (s : String)
  | other
  deriving DecidableEq, Repr

/-- The argument of an `A_Indirection`. -/
inductive IndirectionArg where
  | columnRef (fields : List FieldNode)
  | other
  deriving DecidableEq, Repr

/-- The left side of a `SET`/`REMOVE` item. -/
inductive SetProp where
  | indirection (arg : IndirectionArg) (indirection : List FieldNode)
  | other
  deriving DecidableEq, Repr

/-- `cypher_set_item`. -/
structure CypherSetItem where
  prop : SetProp
  expr : CypherExpr
  isAdd : Bool
  deriving DecidableEq, Repr

/-- `cypher_set`: `SET` or, with `isRemove`, `REMOVE`. -/
structure CypherSet where
  items : List CypherSetItem
  isRemove : Bool
  deriving DecidableEq, Repr

/-- One expression of a `DELETE` list. -/
inductive DeleteExpr where
  | columnRef (fields : List FieldNode)
  | other
  deriving DecidableEq, Repr

/-- `cypher_delete`. -/
structure CypherDelete where
  exprs : List DeleteExpr
  detach : Bool
  deriving DecidableEq, Repr

/-- `clause->self`: the tagged clause value. -/
inductive CypherClause where
  | cypherReturn (r : CypherReturn)
  | cypherWith (w : CypherWith)
  | cypherMatch (m : CypherMatch)
  | cypherCreate (pattern : List CypherPath)
  | cypherSet (s : CypherSet)
  | cypherDelete (d : CypherDelete)
  | cypherSubPattern (pattern : List CypherPath)
  deriving DecidableEq, Repr

end AgeCypher
