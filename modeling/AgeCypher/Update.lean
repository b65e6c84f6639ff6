import AgeCypher.Create
/-!
# The `SET`, `REMOVE` and `DELETE` item lists

Each item names a variable, which must be a column of the previous clause: its
position is the resno `get_target_entry_resno` finds in the target list (and the
entry found gets a volatile wrapper). `SET` compiles its value into a new column.
-/

namespace AgeCypher

/-- `UPDATE_CLAUSE_SET` (declared in a header not under `src/`). -/
def updateClauseSet : String := "SET"

/-- `UPDATE_CLAUSE_REMOVE` (declared in a header not under `src/`). -/
def updateClauseRemove : String := "REMOVE"

/-- One item of `transform_cypher_remove_item_list`: `REMOVE variable.property`. -/
def transformCypherRemoveItem (targetList : List TargetEntry) (setItem : CypherSetItem) :
    TransformM (CypherUpdateItem × List TargetEntry) := do
  let formatError {α : Type} : TransformM α := ereport .featureNotSupported
    "REMOVE clause must be in the format: REMOVE variable.property_name"
  if setItem.isAdd then
    ereport .featureNotSupported "REMOVE clause does not support adding propereties from maps"
  else
    let .indirection arg indirection := setItem.prop | formatError
    let .columnRef fields := arg | formatError
    -- the first field is read as a string without a check
    let .string variableName :: _ := fields | crash
    let (entityPosition, targetList) := getTargetEntryResno targetList variableName
    if entityPosition == -1 then
      ereport .invalidColumnReference
        ("undefined reference to variable " ++ variableName ++ " in REMOVE clause")
    else
      let [propertyNode] := indirection | formatError
      let .string propName := propertyNode
        | ereport .invalidColumnReference "REMOVE clause expects a property name"
      pure (⟨variableName, entityPosition, propName, 0, true⟩, targetList)

/-- One item of `transform_cypher_set_item_list`: `SET variable.property = expr`,
the value compiled into a new column. The left side is read as an indirection
on a column reference without a check. -/
def transformCypherSetItem (targetList : List TargetEntry) (setItem : CypherSetItem) :
    TransformM (CypherUpdateItem × List TargetEntry) := do
  if setItem.isAdd then
    ereport .featureNotSupported "SET clause does not yet support adding propereties from maps"
  else
    let .indirection (.columnRef fields) indirection := setItem.prop | crash
    let variableNode :: _ := fields | crash
    let .string variableName := variableNode
      | ereport .invalidColumnReference "SET clause expects a variable name"
    let (entityPosition, targetList) := getTargetEntryResno targetList variableName
    if entityPosition == -1 then
      ereport .invalidColumnReference
        ("undefined reference to variable " ++ variableName ++ " in SET clause")
    else
      let [propertyNode] := indirection
        | ereport .featureNotSupported
            "SET clause doesnt not support updating maps or lists in a property"
      let .string propName := propertyNode
        | ereport .invalidColumnReference "SET clause expects a property name"
      let propPosition := (← get).pNextResno
      let targetItem ← transformCypherItem setItem.expr none none false
      pure (⟨variableName, entityPosition, propName, propPosition, false⟩,
        targetList ++ [{ targetItem with expr := .volatileWrapper targetItem.expr }])

/-- The loop of an update item list, `transform_cypher_set_item_list` or
`transform_cypher_remove_item_list` depending on `item`. -/
def transformCypherUpdateItemList
    (item : List TargetEntry → CypherSetItem → TransformM (CypherUpdateItem × List TargetEntry)) :
    List CypherSetItem → List TargetEntry → TransformM (List CypherUpdateItem × List TargetEntry)
  | [], targetList => pure ([], targetList)
  | setItem :: setItems, targetList => do
    let (updateItem, targetList) ← item targetList setItem
    let (updateItems, targetList) ← transformCypherUpdateItemList item setItems targetList
    pure (updateItem :: updateItems, targetList)

/-- One item of `transform_cypher_delete_item_list`: a bare variable. -/
def transformCypherDeleteItem (targetList : List TargetEntry) (expr : DeleteExpr) :
    TransformM (CypherDeleteItem × List TargetEntry) := do
  let .columnRef fields := expr | ereport .internalError "unexpected Node for cypher_clause"
  let [field] := fields | ereport .internalError "unexpected Node for cypher_clause"
  let .string varName := field | ereport .internalError "unexpected Node for cypher_clause"
  let (entityPosition, targetList) := getTargetEntryResno targetList varName
  if entityPosition == -1 then
    ereport .invalidColumnReference
      ("undefined reference to variable " ++ varName ++ " in DELETE clause")
  else pure (⟨varName, entityPosition⟩, targetList)

/-- `transform_cypher_delete_item_list`. -/
def transformCypherDeleteItemList :
    List DeleteExpr → List TargetEntry → TransformM (List CypherDeleteItem × List TargetEntry)
  | [], targetList => pure ([], targetList)
  | expr :: exprs, targetList => do
    let (item, targetList) ← transformCypherDeleteItem targetList expr
    let (items, targetList) ← transformCypherDeleteItemList exprs targetList
    pure (item :: items, targetList)

end AgeCypher
