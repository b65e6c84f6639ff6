import AgeCypher.JoinQuals
/-!
# The parse state and the PostgreSQL services the transformer calls

`cypher_parsestate` extends PostgreSQL's `ParseState`; the transformer reads and
writes its range table, join list, namespace, `p_next_resno`, expression kind,
and its own fields `entities`, `property_constraint_quals` and
`default_alias_num`. Transform functions are state transformers that may raise
an error (`ereport(ERROR, ...)` aborts the whole compilation).

The label catalog and the allocation of transform entities are global: a child
state works on them and hands them back when it is merged into its parent.
-/

namespace AgeCypher

/-- `SortGroupClause`. -/
structure SortGroupClause where
  tleSortGroupRef : Nat
  eqop : Nat
  sortop : Nat
  nullsFirst : Bool
  hashable : Bool
  deriving DecidableEq, Repr

/-- The qual of a `FromExpr`: the join condition `transform_match_pattern` builds
(`AND` of the path quals, `AND` of the property constraints), or a `WHERE`. -/
inductive JoinTreeQual where
  | matchPattern (quals props : List Qual)
  | cypherWhere (w : WhereExpr)
  deriving DecidableEq, Repr

/-- `Query`, with the fields this file fills. -/
structure Query where
  targetList : List TargetEntry
  rtable : List RangeTblEntry
  joinlist : List Nat
  quals : Option JoinTreeQual := none
  sortClause : List SortGroupClause := []
  groupClause : List SortGroupClause := []
  distinctClause : List SortGroupClause := []
  limitOffset : Option Expr := none
  limitCount : Option Expr := none
  deriving DecidableEq, Repr

/-- The operators the type cache holds for a type (`lookup_type_cache`); oid 0
is `InvalidOid`. -/
structure TypeCacheEntry where
  ltOpr : Nat
  eqOpr : Nat
  gtOpr : Nat
  hashable : Bool
  deriving DecidableEq, Repr

/-- The parts of the compilation that outlive a child state: the label catalog
(`CREATE` adds labels to it), the system catalogs of operators and of the casts
allowed in assignment (source and target type), and the number of transform
entities allocated. -/
structure GlobalState where
  catalog : List (String × LabelKind)
  typeCache : List (Nat × TypeCacheEntry) := []
  commutators : List (Nat × Nat) := []
  assignmentCasts : List (Nat × Nat) := []
  nextEntityId : Nat
  deriving DecidableEq, Repr

/-- `cypher_parsestate`, with `parentNamespaces` the namespaces of the enclosing
`parentParseState` levels, innermost first. -/
structure CypherParseState where
  pRtable : List RangeTblEntry := []
  pJoinlist : List Nat := []
  pNamespace : List NamespaceItem := []
  pNextResno : Nat := 1
  pExprKind : ParseExprKind := .none
  parentNamespaces : List (List NamespaceItem) := []
  entities : List TransformEntity := []
  propertyConstraintQuals : List Qual := []
  defaultAliasNum : Nat := 0
  global : GlobalState
  deriving DecidableEq, Repr

/-- A transform function: it reads and writes the parse state or raises an error. -/
abbrev TransformM := StateT CypherParseState (Except CypherError)

/-- `ereport(ERROR, (errcode(code), errmsg(message)))`. -/
def ereport {α : Type} (code : SqlState) (message : String) : TransformM α :=
  throw ⟨code, message⟩

/-- `pstate->p_next_resno++`. -/
def nextResno : TransformM Nat :=
  modifyGet fun st => (st.pNextResno, { st with pNextResno := st.pNextResno + 1 })

/-- `sprintf("%d", default_alias_num)` after `n` increments of the C `int`
counter, which wraps at 32 bits: the two's-complement value of `n mod 2^32`. -/
def int32Text (n : Nat) : String :=
  let r := n % 4294967296
  if r < 2147483648 then toString r else "-" ++ toString (4294967296 - r)

/-- The alias `get_next_default_alias` hands out after `n` increments. -/
def defaultAliasName (n : Nat) : String := ageDefaultAliasPrefix ++ int32Text n

/-- `get_next_default_alias`: the prefix followed by `default_alias_num++`. -/
def getNextDefaultAlias : TransformM String :=
  modifyGet fun st =>
    (defaultAliasName st.defaultAliasNum, { st with defaultAliasNum := st.defaultAliasNum + 1 })

/-- Allocate and register a transform entity: `make_transform_entity` followed by
`cpstate->entities = lappend(cpstate->entities, entity)`. -/
def registerEntity (node : EntityNode) (expr : Option Expr) : TransformM TransformEntity :=
  modifyGet fun st =>
    let entity := makeTransformEntity st.global.nextEntityId node expr
    (entity, { st with entities := st.entities ++ [entity],
                       global.nextEntityId := st.global.nextEntityId + 1 })

/-- `addRangeTableEntry...`: append to the range table, return the new index. -/
def addRangeTableEntry (rte : RangeTblEntry) : TransformM Nat :=
  modifyGet fun st => (st.pRtable.length + 1, { st with pRtable := st.pRtable ++ [rte] })

/-- `addRTEtoQuery(pstate, rte, addToJoinList, addToRelNameSpace, addToVarNameSpace)`. -/
def addRTEtoQuery (rtIndex : Nat) (rte : RangeTblEntry)
    (addToJoinList addToRelNameSpace addToVarNameSpace : Bool) : TransformM Unit :=
  modify fun st =>
    { st with
      pJoinlist := if addToJoinList then st.pJoinlist ++ [rtIndex] else st.pJoinlist
      pNamespace :=
        if addToRelNameSpace || addToVarNameSpace then
          st.pNamespace ++ [⟨rtIndex, rte, addToRelNameSpace, addToVarNameSpace⟩]
        else st.pNamespace }

/-- `scanRTEForColumn`: the `Var` of the column named `colname`, an error when
two columns carry the name. When none does and the entry is a relation, the
system column of that name: a user column hides a system column. -/
def scanRTEForColumn (levelsUp rtIndex : Nat) (rte : RangeTblEntry) (colname : String) :
    Except CypherError (Option Expr) :=
  match (rte.colnames.zip rte.coltypes).enum.filter (fun c => c.2.1 == colname) with
  | [] =>
    match rte.kind with
    | .relation .. => .ok ((systemColumnByName colname).map (.systemVar levelsUp rtIndex))
    | .subquery => .ok none
  | [(i, (_, type))] => .ok (some (.var levelsUp rtIndex (i + 1) type))
  | _ => .error ⟨.ambiguousColumn, "column reference \"" ++ colname ++ "\" is ambiguous"⟩

/-- One level of `colNameToVar`: the items whose columns are visible. -/
def colNameToVarLevel (levelsUp : Nat) (colname : String) :
    List NamespaceItem → Except CypherError (Option Expr)
  | [] => .ok none
  | item :: items => do
    let here ← if item.colsVisible then scanRTEForColumn levelsUp item.rtIndex item.rte colname
      else pure none
    let later ← colNameToVarLevel levelsUp colname items
    match here, later with
    | some _, some _ =>
      .error ⟨.ambiguousColumn, "column reference \"" ++ colname ++ "\" is ambiguous"⟩
    | some v, none => pure (some v)
    | none, r => pure r

/-- The levels of `colNameToVar`, innermost first, stopping at the first level
that has the column. -/
def colNameToVarLevels (colname : String) (levelsUp : Nat) :
    List (List NamespaceItem) → Except CypherError (Option Expr)
  | [] => .ok none
  | ns :: outer => do
    match ← colNameToVarLevel levelsUp colname ns with
    | some v => pure (some v)
    | none => colNameToVarLevels colname (levelsUp + 1) outer

/-- `colNameToVar(pstate, colname, false, location)`: search the namespace, then
the namespaces of the enclosing levels. -/
def colNameToVar (colname : String) : TransformM (Option Expr) := do
  let st ← get
  colNameToVarLevels colname 0 (st.pNamespace :: st.parentNamespaces)

/-- `find_rte` (in `cypher_parse_node.c`, not under `src/`): Modelled from the
spec: the first range-table entry of the current level with the given alias. -/
def findRte (name : String) : TransformM (Option (Nat × RangeTblEntry)) := do
  let st ← get
  pure <| (st.pRtable.enum.find? fun r => r.2.aliasname == some name).map
    fun r => (r.1 + 1, r.2)

/-- `expandRelAttrs(pstate, rte, rtindex, 0, -1)`: a target entry for every column. -/
def expandRelAttrs (rtIndex : Nat) (rte : RangeTblEntry) : TransformM (List TargetEntry) :=
  (rte.colnames.zip rte.coltypes).enum.mapM fun (i, (name, type)) => do
    let resno ← nextResno
    pure { expr := .var 0 rtIndex (i + 1) type, resno, resname := some name, resjunk := false }

/-- `make_cypher_parsestate(parent)` (in `cypher_parse_node.c`, not under `src/`):
Modelled from the spec: a child scope with its own relation-construction state,
an empty registry, `p_next_resno = 1`, the parent as `parentParseState`, and the
parent's expression kind (as `analyze_cypher_clause` copies it). -/
def makeCypherParsestate (parent : CypherParseState) : CypherParseState :=
  { pExprKind := parent.pExprKind
    parentNamespaces := parent.pNamespace :: parent.parentNamespaces
    global := parent.global }

/-- `analyze_cypher_clause`: run `transform` in a fresh child state, advance the
child's entities to the next clause and append them to the parent's registry. -/
def analyzeCypherClause {α : Type} (transform : TransformM α) : TransformM α := do
  let parent ← get
  let (query, child) ← liftM (transform.run (makeCypherParsestate parent) :
    Except CypherError (α × CypherParseState))
  set { parent with
    entities := parent.entities ++ advanceTransformEntitiesToNextClause child.entities
    global := child.global }
  pure query

/-- Below `2 ^ 31` the counter prints as itself. -/
@[simp] theorem int32Text_of_lt {n : Nat} (h : n < 2147483648) : int32Text n = toString n := by
  rw [int32Text, Nat.mod_eq_of_lt (by omega), if_pos h]

example : int32Text 4294967295 = "-1" := by decide

/-! ## One step of each primitive

The run of each primitive on a state, as the equations later proofs rewrite
with instead of unfolding the definitions. -/

section RunEquations

@[simp] theorem except_pure {ε α : Type} (a : α) : (pure a : Except ε α) = .ok a := rfl

@[simp] theorem except_ok_bind {ε α β : Type} (a : α) (f : α → Except ε β) :
    (Except.ok a >>= f) = f a := rfl

@[simp] theorem except_error_bind {ε α β : Type} (e : ε) (f : α → Except ε β) :
    (Except.error e >>= f) = Except.error e := rfl

@[simp] theorem except_map_ok {ε α β : Type} (f : α → β) (a : α) :
    (f <$> (Except.ok a : Except ε α)) = .ok (f a) := rfl

@[simp] theorem except_map_error {ε α β : Type} (f : α → β) (e : ε) :
    (f <$> (Except.error e : Except ε α)) = .error e := rfl

variable (s : CypherParseState)

theorem run_bind {α β : Type} (m : TransformM α) (f : α → TransformM β) :
    (m >>= f).run s = m.run s >>= fun p => (f p.1).run p.2 := rfl

theorem run_pure {α : Type} (a : α) : (pure a : TransformM α).run s = .ok (a, s) := rfl

theorem run_map {α β : Type} (f : α → β) (m : TransformM α) :
    (f <$> m).run s = (fun p => (f p.1, p.2)) <$> m.run s := rfl

theorem run_get : (get : TransformM CypherParseState).run s = .ok (s, s) := rfl

@[simp] theorem ereport_run {α : Type} (code : SqlState) (message : String) :
    (ereport code message : TransformM α).run s = .error ⟨code, message⟩ := rfl

@[simp] theorem nextResno_run :
    nextResno.run s = .ok (s.pNextResno, { s with pNextResno := s.pNextResno + 1 }) := rfl

@[simp] theorem getNextDefaultAlias_run :
    getNextDefaultAlias.run s = .ok (defaultAliasName s.defaultAliasNum,
      { s with defaultAliasNum := s.defaultAliasNum + 1 }) := rfl

@[simp] theorem registerEntity_run (node : EntityNode) (expr : Option Expr) :
    (registerEntity node expr).run s =
      .ok (makeTransformEntity s.global.nextEntityId node expr,
        { s with entities := s.entities ++ [makeTransformEntity s.global.nextEntityId node expr],
                 global.nextEntityId := s.global.nextEntityId + 1 }) := rfl

@[simp] theorem addRangeTableEntry_run (rte : RangeTblEntry) :
    (addRangeTableEntry rte).run s =
      .ok (s.pRtable.length + 1, { s with pRtable := s.pRtable ++ [rte] }) := rfl

@[simp] theorem addRTEtoQuery_run (rtIndex : Nat) (rte : RangeTblEntry) (j r v : Bool) :
    (addRTEtoQuery rtIndex rte j r v).run s =
      .ok ((), { s with
        pJoinlist := if j then s.pJoinlist ++ [rtIndex] else s.pJoinlist
        pNamespace := if r || v then s.pNamespace ++ [⟨rtIndex, rte, r, v⟩] else s.pNamespace }) :=
  rfl

@[simp] theorem colNameToVar_run (colname : String) :
    (colNameToVar colname).run s =
      (fun a => (a, s)) <$> colNameToVarLevels colname 0 (s.pNamespace :: s.parentNamespaces) := by
  simp only [colNameToVar, StateT.run_bind, StateT.run_get, except_pure, except_ok_bind]
  cases colNameToVarLevels colname 0 (s.pNamespace :: s.parentNamespaces) <;> rfl

@[simp] theorem findRte_run (name : String) :
    (findRte name).run s = .ok ((s.pRtable.enum.find? fun r => r.2.aliasname == some name).map
      fun r => (r.1 + 1, r.2), s) := rfl

theorem analyzeCypherClause_run {α : Type} (transform : TransformM α) :
    (analyzeCypherClause transform).run s =
      (fun p => (p.1, { s with
        entities := s.entities ++ advanceTransformEntitiesToNextClause p.2.entities,
        global := p.2.global })) <$> transform.run (makeCypherParsestate s) := by
  simp only [analyzeCypherClause, StateT.run_bind, StateT.run_get, pure_bind]
  cases transform.run (makeCypherParsestate s) <;> rfl

end RunEquations

/-! ## What a column lookup finds -/

section Lookup

variable {levelsUp rtIndex : Nat} {rte : RangeTblEntry} {colname : String} {e : Expr}

/-- What `scanRTEForColumn` finds: the one user column of the name, or, when no
user column has it, a system column of a relation. -/
theorem scanRTEForColumn_some (h : scanRTEForColumn levelsUp rtIndex rte colname = .ok (some e)) :
    (∃ i t, (rte.colnames.zip rte.coltypes)[i]? = some (colname, t) ∧
      e = .var levelsUp rtIndex (i + 1) t) ∨
    ((rte.colnames.zip rte.coltypes).enum.filter (·.2.1 == colname) = [] ∧
      ∃ label kind c, rte.kind = .relation label kind ∧ systemColumnByName colname = some c ∧
        e = .systemVar levelsUp rtIndex c) := by
  unfold scanRTEForColumn at h
  split at h
  next hnil =>
    split at h
    next label kind hk =>
      cases hc : systemColumnByName colname with
      | none => rw [hc] at h; cases h
      | some c => rw [hc] at h; cases h; exact .inr ⟨hnil, label, kind, c, hk, rfl, rfl⟩
    next => cases h
  next i n t hone =>
    have hmem := List.mem_filter.1 (hone ▸ List.mem_singleton_self (i, (n, t)))
    obtain rfl : n = colname := by simpa using hmem.2
    cases h
    exact .inl ⟨i, t, List.mem_enum_iff_getElem?.1 hmem.1, rfl⟩
  next => cases h

/-- What a level finds is what `scanRTEForColumn` finds in one of its items whose
columns are visible. -/
theorem colNameToVarLevel_some : ∀ {items : List NamespaceItem},
    colNameToVarLevel levelsUp colname items = .ok (some e) →
      ∃ item ∈ items, item.colsVisible = true ∧
        scanRTEForColumn levelsUp item.rtIndex item.rte colname = .ok (some e)
  | [], h => by cases h
  | x :: items, h => by
    rw [colNameToVarLevel] at h
    cases hl : colNameToVarLevel levelsUp colname items with
    | error =>
      split at h
      · cases hh : scanRTEForColumn levelsUp x.rtIndex x.rte colname <;> simp [hh, hl] at h
      · simp [hl] at h
    | ok later =>
      -- the later items answer, unless `x` does
      have hlater : later = some e → ∃ item ∈ x :: items, item.colsVisible = true ∧
          scanRTEForColumn levelsUp item.rtIndex item.rte colname = .ok (some e) := by
        rintro rfl
        obtain ⟨item, hmem, hv, hs⟩ := colNameToVarLevel_some hl
        exact ⟨item, List.mem_cons_of_mem _ hmem, hv, hs⟩
      split at h
      next hv =>
        cases hh : scanRTEForColumn levelsUp x.rtIndex x.rte colname with
        | error => rw [hh] at h; cases h
        | ok here =>
          simp only [hh, hl, except_ok_bind] at h
          cases here with
          | none => exact hlater (Except.ok.inj h)
          | some v =>
            cases later with
            | some _ => cases h
            | none => cases h; exact ⟨x, List.mem_cons_self _ _, hv, hh⟩
      next => simp only [hl, except_pure, except_ok_bind] at h; exact hlater (Except.ok.inj h)

/-- What the levels find is what the innermost level finds, or, when it finds
nothing, what the enclosing levels find. -/
theorem colNameToVarLevels_cons_some {ns : List NamespaceItem} {outer : List (List NamespaceItem)}
    (h : colNameToVarLevels colname levelsUp (ns :: outer) = .ok (some e)) :
    colNameToVarLevel levelsUp colname ns = .ok (some e) ∨
      colNameToVarLevel levelsUp colname ns = .ok none ∧
        colNameToVarLevels colname (levelsUp + 1) outer = .ok (some e) := by
  rw [colNameToVarLevels] at h
  cases hl : colNameToVarLevel levelsUp colname ns with
  | error => rw [hl] at h; cases h
  | ok r =>
    rw [hl, except_ok_bind] at h
    cases r with
    | some v => cases h; exact .inl rfl
    | none => exact .inr ⟨rfl, h⟩

end Lookup

end AgeCypher
