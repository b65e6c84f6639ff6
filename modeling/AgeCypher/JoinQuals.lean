import AgeCypher.Entity
/-!
# Join quals of a match path

`make_path_join_quals` walks the entity list of a path with the window
`[prev_edge]-(prev_node)-[edge]-(next_node)-[next_edge]` and asks
`make_join_condition_for_edge` for the quals that tie `edge` to its neighbours.
The quals are the parse-level expressions the C code builds; what they mean on
a graph is the subject of `AgeCypher.Semantics`.

The `for (;;)` loop is modelled pass by pass (`joinLoopBody`), with its list
cursor and the variables that survive a pass; a null dereference is `crash`.
The main result here is that on every alternating path the loop makes one pass
per edge and returns the quals of the windows in order (`pathWindows`).
-/

namespace AgeCypher

/-- The column names `make_qual` is asked for (`AG_EDGE_COLNAME_ID`, ...). -/
inductive ColName where
  | id
  | startId
  | endId
  | properties
  deriving DecidableEq, Repr

/-- `make_qual(cpstate, entity, col_name)`: column `col` of `entity`, read through
the accessor function when the entity is a `Var` of a previous clause, and as
`graphid_to_agtype` of the relation column otherwise. -/
structure Field where
  entity : TransformEntity
  col : ColName
  deriving DecidableEq, Repr

/-- `enum transform_entity_join_side`. -/
inductive JoinSide where
  | left
  | right
  deriving DecidableEq, Repr

/-- An `A_Expr` built for a join: `=` between two fields, `IN` against both
endpoints of an undirected edge, or the `filter_vertices_on_label_id` test. -/
inductive JoinAtom where
  | eq (l r : Field)
  | isIn (l : Field) (rs : List Field)
  | labelFilter (idField : Field) (label : String)
  deriving DecidableEq, Repr

/-- An element of the qual list of a path. -/
inductive Qual where
  | atom (a : JoinAtom)
  /-- `OR(AND(first), AND(second))`, built for an undirected edge. -/
  | orAnd (first second : List JoinAtom)
  /-- `_ag_enforce_edge_uniqueness` over the id fields of the edges of a path. -/
  | edgeUniqueness (ids : List Field)
  /-- `_property_constraint_check` of an element's properties against its map. -/
  | propertyConstraint (entity : TransformEntity) (props : CypherProps)
  deriving DecidableEq, Repr

/-- `make_edge_quals`: the endpoint of `edge` (of direction `dir`) that meets the
current edge from side `side`; an undirected `edge` offers both endpoints. -/
def makeEdgeQuals (edge : TransformEntity) (dir : CypherRelDir) (side : JoinSide) :
    Field × Option Field :=
  let dirs : ColName × ColName :=
    match side with
    | .left => (.startId, .endId)
    | .right => (.endId, .startId)
  match dir with
  | .left => (⟨edge, dirs.1⟩, none)
  | .right => (⟨edge, dirs.2⟩, none)
  | .none => (⟨edge, dirs.1⟩, some ⟨edge, dirs.2⟩)

/-- `join_to_entity`: tie `qual` to a vertex by its id, or to an edge by the
endpoint(s) `make_edge_quals` offers, with `IN` when there are two. -/
def joinToEntity (entity : TransformEntity) (qual : Field) (side : JoinSide) :
    List JoinAtom :=
  match entity.entity with
  | .node _ => [.eq qual ⟨entity, .id⟩]
  | .rel r =>
    match makeEdgeQuals entity r.dir side with
    | (q, none) => [.eq qual q]
    | (q, some q') => [.isIn qual [q, q']]

/-- The label test `make_directed_edge_join_conditions` adds for a node left out
of the join tree: none for a null or default label. -/
def labelFilterQuals (idField : Field) : Option String → List JoinAtom
  | some label => if isDefaultLabelVertex (some label) then [] else [.labelFilter idField label]
  | none => []

/-- `make_directed_edge_join_conditions`. -/
def makeDirectedEdgeJoinConditions (prevEntity nextEntity : TransformEntity)
    (prevQual nextQual : Field) (prevNodeFilter nextNodeFilter : Option String) :
    List JoinAtom :=
  (if prevEntity.inJoinTree then joinToEntity prevEntity prevQual .left else []) ++
    (if nextEntity.inJoinTree then joinToEntity nextEntity nextQual .right else []) ++
    labelFilterQuals prevQual prevNodeFilter ++ labelFilterQuals nextQual nextNodeFilter

/-- `make_join_condition_for_edge`. A vertex in the edge slot (which an
alternating path never puts there) falls to the `default` branch. -/
def makeJoinConditionForEdge (prevEdge : Option TransformEntity)
    (prevNode entity nextNode : TransformEntity) (nextEdge : Option TransformEntity) :
    List Qual :=
  let prevLabel := if prevNode.inJoinTree then none else prevNode.label
  let nextLabel := if !nextNode.inJoinTree && nextEdge.isNone then nextNode.label else none
  let prevEntity := if prevNode.inJoinTree then prevNode else prevEdge.getD prevNode
  let nextEntity := if nextNode.inJoinTree then nextNode else nextEdge.getD nextNode
  match entity.entity with
  | .rel r =>
    match r.dir with
    | .right =>
      (makeDirectedEdgeJoinConditions prevEntity nextNode ⟨entity, .startId⟩
        ⟨entity, .endId⟩ prevLabel nextLabel).map .atom
    | .left =>
      (makeDirectedEdgeJoinConditions prevEntity nextNode ⟨entity, .endId⟩
        ⟨entity, .startId⟩ prevLabel nextLabel).map .atom
    | .none =>
      [.orAnd
        (makeDirectedEdgeJoinConditions prevEntity nextEntity ⟨entity, .startId⟩
          ⟨entity, .endId⟩ prevLabel nextLabel)
        (makeDirectedEdgeJoinConditions prevEntity nextEntity ⟨entity, .endId⟩
          ⟨entity, .startId⟩ prevLabel nextLabel)]
  | .node _ => []

/-- `prevent_duplicate_edges`: the uniqueness call over the id of every edge. -/
def preventDuplicateEdges (entities : List TransformEntity) : Qual :=
  .edgeUniqueness ((entities.filter fun e => e.type == .edge).map fun e => ⟨e, .id⟩)

/-! ## The loop of `make_path_join_quals` -/

/-- The variables of the loop that survive a pass: the cursor `lc` (its cell
`cur` and the cells after it), `prev_node`, `prev_edge`, `edge`, and the quals
collected so far. `next_node` and `next_edge` are reset at the end of a pass. -/
structure JoinLoop where
  cur : TransformEntity
  rest : List TransformEntity
  prevNode : Option TransformEntity
  prevEdge : Option TransformEntity
  edge : Option TransformEntity
  quals : List Qual

/-- The end of one pass: go round again, return the quals, or dereference null. -/
inductive JoinLoopStep where
  | next (s : JoinLoop)
  | done (quals : List Qual)
  | crash

/-- The look-ahead of a pass: from the cell `cur`, step to the next node and,
when there is one, to the next edge. Returns the new cursor with `next_node`
and `next_edge`. -/
def lookAhead (cur : TransformEntity) :
    List TransformEntity →
      TransformEntity × List TransformEntity × Option TransformEntity × Option TransformEntity
  | [] => (cur, [], none, none)
  | [n] => (n, [], some n, none)
  | n :: e :: rest => (e, rest, some n, some e)

/-- The initial setup of a pass: on the first pass (`prev_node == NULL`) the first
cell is the previous node and the second the edge. -/
def joinLoopInit (s : JoinLoop) :
    Option (TransformEntity × List TransformEntity × TransformEntity × Option TransformEntity) :=
  match s.prevNode with
  | some pn => some (s.cur, s.rest, pn, s.edge)
  | none =>
    match s.rest with
    | [] => none
    | e :: rest => some (e, rest, s.cur, some e)

/-- One pass of the `for (;;)` body. -/
def joinLoopBody (s : JoinLoop) : JoinLoopStep :=
  match joinLoopInit s with
  | none => .crash
  | some (cur, rest, pn, edge) =>
    match lookAhead cur rest, edge with
    | (cur, rest, some nextNode, nextEdge), some ed =>
      let quals := s.quals ++ makeJoinConditionForEdge s.prevEdge pn ed nextNode nextEdge
      match nextEdge with
      | none => .done quals
      | some _ =>
        .next { cur, rest, prevNode := some nextNode, prevEdge := edge, edge := nextEdge, quals }
    | _, _ => .crash

/-- At most `fuel` passes of the loop. -/
def joinLoop : Nat → JoinLoop → JoinLoopStep
  | 0, s => .next s
  | fuel + 1, s =>
    match joinLoopBody s with
    | .next s' => joinLoop fuel s'
    | r => r

/-- `make_path_join_quals`; `none` when the loop dereferences a null pointer.
The loop gets `entities.length` passes, always enough (`joinLoop_length`). -/
def makePathJoinQuals (entities : List TransformEntity) : Option (List Qual) :=
  if entities.length < 3 then some [] else
  match entities with
  | [] => some []
  | cur :: rest =>
    match joinLoop entities.length ⟨cur, rest, none, none, none, []⟩ with
    | .done quals => some quals
    | _ => none

theorem joinLoopInit_rest {s : JoinLoop} {cur pn : TransformEntity} {rest}
    {edge : Option TransformEntity} (h : joinLoopInit s = some (cur, rest, pn, edge)) :
    rest.length ≤ s.rest.length := by
  unfold joinLoopInit at h
  rcases s with ⟨_, _ | ⟨e, r⟩, _ | _, _, _, _⟩ <;> simp_all

theorem lookAhead_rest {cur c n e : TransformEntity} {rest r : List TransformEntity}
    (h : lookAhead cur rest = (c, r, some n, some e)) : r.length + 2 = rest.length := by
  match rest, h with
  | _ :: _ :: _, rfl => simp

/-- A pass that goes round again consumes two cells of the list. -/
theorem joinLoopBody_rest {s s' : JoinLoop} (h : joinLoopBody s = .next s') :
    s'.rest.length + 2 ≤ s.rest.length := by
  unfold joinLoopBody at h
  split at h
  · cases h
  · rename_i hinit
    split at h
    · rename_i hla
      split at h
      · cases h
      · cases h
        have := joinLoopInit_rest hinit
        have := lookAhead_rest hla
        simp only
        omega
    · cases h

/-! ## Alternating paths -/

/-- The cells after `v₀` of the alternating list `v₀ e₀ v₁ … eₖ₋₁ vₖ`, given as
the (edge, vertex) steps of the path. -/
def flattenSteps : List (TransformEntity × TransformEntity) → List TransformEntity
  | [] => []
  | (e, v) :: steps => e :: v :: flattenSteps steps

/-- `make_join_condition_for_edge (eᵢ₋₁, vᵢ, eᵢ, vᵢ₊₁, eᵢ₊₁)` for every edge of the
path in order, `prevEdge` standing before the first window. -/
def pathWindows (prevEdge : Option TransformEntity) (prevNode : TransformEntity) :
    List (TransformEntity × TransformEntity) → List Qual
  | [] => []
  | (e, v) :: steps =>
    makeJoinConditionForEdge prevEdge prevNode e v (steps.head?.map Prod.fst) ++
      pathWindows (some e) v steps

/-- The window of edge `i` of a path with vertices `vs` and edges `es`, indexed as
in the C loop; `prevEdge` is `e₋₁`. -/
def edgeWindow (prevEdge : Option TransformEntity) (vs es : List TransformEntity) (i : Nat) :
    List Qual :=
  match vs[i]?, es[i]?, vs[i + 1]? with
  | some pn, some e, some nn =>
    makeJoinConditionForEdge (if i = 0 then prevEdge else es[i - 1]?) pn e nn es[i + 1]?
  | _, _, _ => []

/-- The loop state at the top of the pass for edge `e`, between `pn` and `v`. -/
def midLoop (prevEdge : Option TransformEntity) (pn e v : TransformEntity)
    (steps : List (TransformEntity × TransformEntity)) (quals : List Qual) : JoinLoop :=
  ⟨e, v :: flattenSteps steps, some pn, prevEdge, some e, quals⟩

/-- The loop state on entry, for the list `v₀ e₀ v₁ …`. -/
def firstLoop (v₀ e₀ v₁ : TransformEntity) (steps : List (TransformEntity × TransformEntity)) :
    JoinLoop :=
  ⟨v₀, e₀ :: v₁ :: flattenSteps steps, none, none, none, []⟩

theorem joinLoopBody_midLoop (prevEdge : Option TransformEntity) (pn e v : TransformEntity)
    (steps : List (TransformEntity × TransformEntity)) (quals : List Qual) :
    joinLoopBody (midLoop prevEdge pn e v steps quals) =
      match steps with
      | [] => .done (quals ++ makeJoinConditionForEdge prevEdge pn e v none)
      | (e', v') :: steps' =>
        .next (midLoop (some e) v e' v' steps'
          (quals ++ makeJoinConditionForEdge prevEdge pn e v (some e'))) := by
  rcases steps with _ | ⟨⟨e', v'⟩, steps'⟩ <;> rfl

theorem joinLoopBody_firstLoop (v₀ e₀ v₁ : TransformEntity)
    (steps : List (TransformEntity × TransformEntity)) :
    joinLoopBody (firstLoop v₀ e₀ v₁ steps) = joinLoopBody (midLoop none v₀ e₀ v₁ steps []) := by
  rcases steps with _ | ⟨⟨e', v'⟩, steps'⟩ <;> rfl

/-- From the pass for edge `e` on, the loop makes one pass per remaining edge
and returns the window quals. -/
theorem joinLoop_midLoop (prevEdge : Option TransformEntity) (pn e v : TransformEntity)
    (steps : List (TransformEntity × TransformEntity)) (quals : List Qual) :
    joinLoop (steps.length + 1) (midLoop prevEdge pn e v steps quals) =
      .done (quals ++ pathWindows prevEdge pn ((e, v) :: steps)) := by
  induction steps generalizing prevEdge pn e v quals with
  | nil => simp [joinLoop, joinLoopBody_midLoop, pathWindows]
  | cons s steps ih =>
    obtain ⟨e', v'⟩ := s
    rw [List.length_cons, joinLoop, joinLoopBody_midLoop]
    simp only [ih, pathWindows, List.append_assoc, List.head?_cons, Option.map_some']

/-- Before the pass for the last edge the loop is still running. -/
theorem joinLoop_midLoop_running (prevEdge : Option TransformEntity) (pn e v : TransformEntity)
    (steps : List (TransformEntity × TransformEntity)) (quals : List Qual) :
    ∀ j ≤ steps.length, ∃ s, joinLoop j (midLoop prevEdge pn e v steps quals) = .next s := by
  induction steps generalizing prevEdge pn e v quals with
  | nil => intro j hj; exact ⟨_, by rw [Nat.le_zero.mp hj, joinLoop]⟩
  | cons s steps ih =>
    obtain ⟨e', v'⟩ := s
    rintro (_ | j) hj
    · exact ⟨_, rfl⟩
    · rw [joinLoop, joinLoopBody_midLoop]
      exact ih _ _ _ _ _ j (by simpa using hj)

theorem pathWindows_eq_edgeWindow (prevEdge : Option TransformEntity) (v₀ : TransformEntity)
    (steps : List (TransformEntity × TransformEntity)) :
    pathWindows prevEdge v₀ steps =
      (List.range steps.length).flatMap
        (edgeWindow prevEdge (v₀ :: steps.map Prod.snd) (steps.map Prod.fst)) := by
  induction steps generalizing prevEdge v₀ with
  | nil => rfl
  | cons s steps ih =>
    obtain ⟨e, v⟩ := s
    rw [pathWindows, ih, List.length_cons, List.range_succ_eq_map, List.flatMap_cons,
      List.flatMap_map]
    congr 1
    · rcases steps with _ | ⟨⟨e', v'⟩, steps⟩ <;> simp [edgeWindow]
    · congr 1
      funext i
      rcases i with _ | i <;> simp [edgeWindow]

@[simp] theorem length_flattenSteps (steps : List (TransformEntity × TransformEntity)) :
    (flattenSteps steps).length = 2 * steps.length := by
  induction steps with
  | nil => rfl
  | cons s steps ih => simp only [flattenSteps, List.length_cons, ih]; omega

/-- Extra passes do not change a finished loop. -/
theorem joinLoop_done_of_le {n m : Nat} {s : JoinLoop} {quals : List Qual}
    (h : joinLoop n s = .done quals) (hnm : n ≤ m) : joinLoop m s = .done quals := by
  induction n generalizing s m with
  | zero => cases h
  | succ n ih =>
    obtain ⟨m, rfl⟩ : ∃ m', m = m' + 1 := ⟨m - 1, by omega⟩
    rw [joinLoop] at h ⊢
    cases hbody : joinLoopBody s <;> rw [hbody] at h
    · exact ih h (by omega)
    · exact h
    · cases h

/-- On every list the loop returns or crashes within `n` passes once fewer than
`2 n` cells follow the cursor: the fuel of `makePathJoinQuals` is never the
reason it stops. -/
theorem joinLoop_not_next (n : Nat) (s : JoinLoop) (h : s.rest.length < 2 * n)
    (s' : JoinLoop) : joinLoop n s ≠ .next s' := by
  induction n generalizing s with
  | zero => omega
  | succ n ih =>
    rw [joinLoop]
    cases hbody : joinLoopBody s with
    | next s'' => exact ih s'' (by have := joinLoopBody_rest hbody; omega)
    | done _ => simp
    | crash => simp

/-- `makePathJoinQuals` runs the loop until it returns or crashes. -/
theorem joinLoop_length (cur : TransformEntity) (rest : List TransformEntity) (s' : JoinLoop) :
    joinLoop (cur :: rest).length ⟨cur, rest, none, none, none, []⟩ ≠ .next s' :=
  joinLoop_not_next _ _ (by simp only [List.length_cons]; omega) s'

theorem joinLoop_firstLoop (n : Nat) (v₀ e₀ v₁ : TransformEntity)
    (steps : List (TransformEntity × TransformEntity)) :
    joinLoop (n + 1) (firstLoop v₀ e₀ v₁ steps) = joinLoop (n + 1) (midLoop none v₀ e₀ v₁ steps []) := by
  simp only [joinLoop, joinLoopBody_firstLoop]

/-- On an alternating entity list the loop returns the window quals. -/
theorem makePathJoinQuals_alternating (v₀ e₀ v₁ : TransformEntity)
    (steps : List (TransformEntity × TransformEntity)) :
    makePathJoinQuals (v₀ :: e₀ :: v₁ :: flattenSteps steps) =
      some (pathWindows none v₀ ((e₀, v₁) :: steps)) := by
  have hdone := (joinLoop_firstLoop _ v₀ e₀ v₁ steps).trans (joinLoop_midLoop none v₀ e₀ v₁ steps [])
  have hfuel := joinLoop_done_of_le hdone
    (m := (v₀ :: e₀ :: v₁ :: flattenSteps steps).length) (by simp; omega)
  simp only [makePathJoinQuals, List.length_cons, length_flattenSteps] at hfuel ⊢
  rw [if_neg (by omega)]
  simp only [firstLoop] at hfuel
  rw [hfuel, List.nil_append]

/-- On an alternating entity list `v₀ e₀ v₁ … eₖ₋₁ vₖ` (`k ≥ 1`), the loop of
`make_path_join_quals` is still running after each of the first `k - 1` passes
and returns after pass `k`, never dereferencing null, with the quals of
`make_join_condition_for_edge (eᵢ₋₁, vᵢ, eᵢ, vᵢ₊₁, eᵢ₊₁)` for `i = 0 … k-1`
concatenated in order (`e₋₁` and `eₖ` null). Lists shorter than 3 give `NIL`. -/
theorem makePathJoinQuals_exact_passes (v₀ e₀ v₁ : TransformEntity)
    (steps : List (TransformEntity × TransformEntity)) :
    (∀ j < steps.length + 1, ∃ s, joinLoop j (firstLoop v₀ e₀ v₁ steps) = .next s) ∧
      joinLoop (steps.length + 1) (firstLoop v₀ e₀ v₁ steps) =
        .done ((List.range (steps.length + 1)).flatMap
          (edgeWindow none (v₀ :: v₁ :: steps.map Prod.snd) (e₀ :: steps.map Prod.fst))) ∧
      makePathJoinQuals (v₀ :: e₀ :: v₁ :: flattenSteps steps) =
        some ((List.range (steps.length + 1)).flatMap
          (edgeWindow none (v₀ :: v₁ :: steps.map Prod.snd) (e₀ :: steps.map Prod.fst))) ∧
      ∀ entities : List TransformEntity, entities.length < 3 → makePathJoinQuals entities = some [] := by
  have hwin := pathWindows_eq_edgeWindow none v₀ ((e₀, v₁) :: steps)
  simp only [List.length_cons, List.map_cons] at hwin
  refine ⟨?_, ?_, ?_, fun entities h => by simp [makePathJoinQuals, h]⟩
  · rintro (_ | j) hj
    · exact ⟨_, rfl⟩
    · rw [joinLoop_firstLoop]
      exact joinLoop_midLoop_running _ _ _ _ _ _ _ (by simp at hj; omega)
  · rw [joinLoop_firstLoop, joinLoop_midLoop, List.nil_append, hwin]
  · rw [makePathJoinQuals_alternating, hwin]

end AgeCypher
