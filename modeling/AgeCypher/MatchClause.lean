import AgeCypher.MatchMeaning
import AgeCypher.Registry
/-!
# What the qual of a compiled `MATCH` clause means

`transform_match_pattern` gives the query of a `MATCH` clause the join-tree qual
`AND` of the quals of its paths and of the property constraints its elements
registered (`create_property_constraint_function`, one for each element that
carries a property map), and no qual when both lists are empty. The previous
clause is compiled as a subquery in a child state, whose constraints stay there.

A named path also gets a column, `_agtype_build_path` over the expressions of
its entities (`transform_match_create_path_variable`); `INCLUDE_NODE_IN_JOIN_TREE`
holds for every vertex of a named path, so each of them has one.

* `matchClause_iff_match`: for a clause of one path whose edges are all directed,
  the qual holds on a row of the relations of the entities the clause registers
  exactly when the row holds a match of the path and the property check holds
  for every element that carries a map, provided the elements whose variables
  read columns of the previous clause carry no label but the default one;
* `namedMatchPath_buildsFromEntities`: the column of a named path is built from
  the expressions of all its entities, in order, none of them a null constant.
-/

namespace AgeCypher

/-- The states with the same property constraints. -/
def constraintsKept : StateOrder where
  rel s s' := s'.propertyConstraintQuals = s.propertyConstraintQuals
  refl _ := rfl
  trans h₁ h₂ := h₂.trans h₁

/-! ## The previous clause leaves the constraints alone -/

section Prev

/-- The subquery is compiled in a child state; merging it back keeps the parent's
constraints. -/
theorem transformPrevCypherClause_constraints (m : TransformM Query) :
    Moves constraintsKept (transformPrevCypherClause m) := by
  refine Moves.bind ?_ fun ⟨i, rte, _⟩ =>
    expandRelAttrs_moves (fun s a s' h => by cases h; rfl) i rte
  refine Moves.get.bind fun st => Moves.bind ?_ fun _ => Moves.bind ?_ fun q => Moves.bind ?_
    fun _ => Moves.bind ?_ fun i => Moves.bind ?_ fun _ => Moves.bind ?_ fun _ => .pure
  · exact .ite (fun s a s' h => by cases h; rfl) .pure
  · intro s a s' h
    obtain ⟨c, -, rfl⟩ := analyzeCypherClause_ok h
    rfl
  · exact fun s a s' h => by cases h; rfl
  · exact fun s a s' h => by cases h; rfl
  · exact .ite (.of_readOnly (checkNameSpaceConflicts_readOnly _)) .pure
  · exact fun s a s' h => by cases h; rfl

end Prev

/-! ## The qual of the clause -/

section Clause

variable {g : Graph} {row : Row} {pc : TransformEntity → CypherProps → Bool}

/-- The constraints of some entities hold exactly when the check holds for every
entity that carries a map. -/
theorem propertyConstraints_eval {es : List TransformEntity} :
    (∀ c ∈ es.flatMap (·.propertyConstraint.toList), c.eval g row pc = true) ↔
      ∀ x ∈ es, ∀ p, x.props = some p → pc x p = true := by
  constructor
  · intro h x hx p hp
    exact h (.propertyConstraint x p)
      (List.mem_flatMap.2 ⟨x, hx, by simp [TransformEntity.propertyConstraint, hp]⟩)
  · intro h c hc
    obtain ⟨x, hx, hc⟩ := List.mem_flatMap.1 hc
    obtain ⟨p, hp, rfl⟩ : ∃ p, x.props = some p ∧ Qual.propertyConstraint x p = c := by
      simpa [TransformEntity.propertyConstraint] using hc
    exact h x hx p hp

/-- For a clause of one path whose edges are all directed, compiled from a state
with no property constraint: the join-tree qual is the `AND` of the path's quals
and of the constraints, and holds on a row of the registered entities' relations
exactly when the row holds a match and every map passes its check. An element
whose variable reads a column of the previous clause is not label-tested, so it
must carry no label but the default one. -/
theorem matchClause_iff_match {prev : Option (TransformM Query)} {path : CypherPath}
    {s s' : CypherParseState} {q : Query} {n₀ : CypherNode} {pattern}
    (hpath : path.path = .node n₀ :: flattenPattern pattern) (hne : pattern ≠ [])
    (hdir : ∀ p ∈ pattern, p.1.dir ≠ .none) (hpc : s.propertyConstraintQuals = [])
    (h : (transformCypherMatch prev ⟨[path], none⟩).run s = .ok (q, s')) :
    ∃ v₀ steps quals pcs, v₀ :: flattenSteps steps <:+ s'.entities ∧
      (v₀ :: flattenSteps steps).map TransformEntity.props = path.path.map PathElement.props ∧
      (q.quals = none ∧ quals ++ pcs = [] ∨ q.quals = some (.matchPattern quals pcs)) ∧
      ∀ (g : Graph) (row : Row) (pc : TransformEntity → CypherProps → Bool),
        g.WellFormed → RowOfRelations g (v₀ :: flattenSteps steps) row →
          ColumnsUnlabelled (v₀ :: flattenSteps steps) →
          ((∀ c ∈ quals ++ pcs, c.eval g row pc = true) ↔
            (∃ V₀ ss, IsPathMatch g n₀ pattern V₀ ss ∧ RowOfMatch row v₀ steps V₀ ss) ∧
              ∀ x ∈ v₀ :: flattenSteps steps, ∀ p, x.props = some p → pc x p = true) := by
  change (transformCypherMatchPattern prev [path]).run s = .ok (q, s') at h
  obtain ⟨tl, s₁, h₁, h⟩ := run_bind_ok h
  -- the previous clause registers no constraint in this state
  have hpc₁ : s₁.propertyConstraintQuals = [] := by
    cases prev with
    | none =>
      obtain ⟨-, rfl⟩ := run_pure_ok h₁
      exact hpc
    | some m => exact (transformPrevCypherClause_constraints m s tl s₁ h₁).trans hpc
  obtain ⟨⟨quals, tl₁⟩, s₂, h₂, h⟩ := run_bind_ok h
  rw [transformMatchPaths] at h₂
  obtain ⟨⟨qual, tl₂⟩, s₃, h₃, h₂⟩ := run_bind_ok h₂
  obtain ⟨⟨quals', tl₃⟩, s₄, h₄, h₂⟩ := run_bind_ok h₂
  rw [transformMatchPaths] at h₄
  obtain ⟨⟨⟩, rfl⟩ := run_pure_ok h₄
  obtain ⟨⟨⟩, rfl⟩ := run_pure_ok h₂
  obtain ⟨u, s₅, h₅, h⟩ := run_bind_ok h
  cases transformQuals_readOnly _ _ _ _ h₅
  obtain ⟨st, s₆, h₆, h⟩ := run_bind_ok h
  obtain ⟨rfl, rfl⟩ := run_get_ok h₆
  obtain ⟨rfl, rfl⟩ := run_pure_ok h
  obtain ⟨v₀, steps, n₀', pattern', hreg, hv₀, hn₀, hc, hres, hedges, hq, hprops, hpcs⟩ :=
    transformMatchPath_alternating hpath h₃
  refine ⟨v₀, steps, qual ++ [], s'.propertyConstraintQuals, ⟨s₁.entities, hreg.symm⟩, hprops, ?_,
    fun g row pc hg hrow hl => ?_⟩
  · -- no qual exactly when there is nothing to `AND`
    split
    · rename_i hempty
      exact .inl ⟨rfl, by simpa [List.isEmpty_iff] using hempty⟩
    · exact .inr rfl
  · rw [List.append_nil, List.forall_mem_append, hpcs, hpc₁, List.nil_append,
      propertyConstraints_eval, hq, directedPathQuals_iff_match hg hv₀ hc (hc.eq_nil hres hne)
        (hres.dir_ne_none hdir) hedges (hrow.admitted hl)]
    simp only [isPathMatch_of_resolves hn₀ hres]

/-- `MATCH (a)-[r]->(:Person)`, the first clause of its chain. -/
theorem toPersonMatch_iff_match :
    ∃ q s', (transformCypherMatch none ⟨[toPersonPath .right], none⟩).run personGraphState =
        .ok (q, s') ∧
      ∃ v₀ steps quals pcs, v₀ :: flattenSteps steps <:+ s'.entities ∧
        (v₀ :: flattenSteps steps).map TransformEntity.props =
          (toPersonPath .right).path.map PathElement.props ∧
        (q.quals = none ∧ quals ++ pcs = [] ∨ q.quals = some (.matchPattern quals pcs)) ∧
        ∀ (g : Graph) (row : Row) (pc : TransformEntity → CypherProps → Bool),
          g.WellFormed → RowOfRelations g (v₀ :: flattenSteps steps) row →
          ColumnsUnlabelled (v₀ :: flattenSteps steps) →
            ((∀ c ∈ quals ++ pcs, c.eval g row pc = true) ↔
              (∃ V₀ ss, IsPathMatch g ⟨some "a", none, none⟩
                  [(⟨some "r", none, none, false, .right⟩, ⟨none, some "Person", none⟩)] V₀ ss ∧
                RowOfMatch row v₀ steps V₀ ss) ∧
                ∀ x ∈ v₀ :: flattenSteps steps, ∀ p, x.props = some p → pc x p = true) :=
  let ⟨q, s', h⟩ := toPersonMatch_compiles .right none
  ⟨q, s', h, matchClause_iff_match rfl (List.cons_ne_nil _ _) (by decide) rfl h⟩

end Clause

/-! ## The column of a named path -/

section PathColumn

variable {path : CypherPath} {tl : List TargetEntry} {s s' : CypherParseState}

/-- In a named path every element is in the join tree: one entity per cell is
registered, in order, each with its expression. -/
theorem transformMatchEntities_named {b : Bool} {els : List PathElement}
    {r : List TransformEntity × List TargetEntry} (hname : path.varName.isSome)
    (h : (transformMatchEntities path b els tl).run s = .ok (r, s')) :
    s'.entities = s.entities ++ r.1 ∧ r.1.length = els.length ∧ ∀ x ∈ r.1, x.inJoinTree := by
  induction b, els, tl using transformMatchEntities.induct path generalizing s r s' with
  | case1 b tl =>
    rw [transformMatchEntities] at h
    obtain ⟨rfl, rfl⟩ := run_pure_ok h
    exact ⟨(List.append_nil _).symm, rfl, fun _ h => nomatch h⟩
  | case2 node rest tl ih =>
    obtain ⟨v, -, tl₁, s₁, r₁, -, -, h₁, hr, hs₁, -, -, hv⟩ := transformMatchEntities_node h
    obtain ⟨hs', hlen, hjt⟩ := ih tl₁ h₁
    rw [hr, hs', hs₁, List.append_assoc, List.length_cons, hlen, List.forall_mem_cons]
    exact ⟨rfl, rfl, by simp [hv, includeNodeInJoinTree, hname], hjt⟩
  | case3 rel rest tl ih =>
    obtain ⟨e, -, tl₁, s₁, r₁, -, -, -, he, h₁, hr, hs₁, -⟩ := transformMatchEntities_rel h
    obtain ⟨hs', hlen, hjt⟩ := ih tl₁ h₁
    rw [hr, hs', hs₁, List.append_assoc, List.length_cons, hlen, List.forall_mem_cons]
    exact ⟨rfl, rfl, he, hjt⟩
  | case4 b hd tl tl' hnode hrel =>
    rw [transformMatchEntities] at h
    · simp at h
    · exact hnode
    · exact hrel

/-- `transform_match_create_path_variable` passes `_agtype_build_path` the
entities' expressions, a null constant for an entity out of the join tree. -/
theorem transformMatchCreatePathVariable_entry {name : String} {entities : List TransformEntity}
    {te : TargetEntry} (h : (transformMatchCreatePathVariable name entities).run s = .ok (te, s')) :
    te = { expr := .buildPath (.ofList (entities.map fun e => e.expr.getD .nullConst)),
           resno := s.pNextResno, resname := some name, resjunk := false } := by
  unfold transformMatchCreatePathVariable at h
  split at h
  · cases h
  · obtain ⟨resno, s₁, h₁, h⟩ := run_bind_ok h
    rw [nextResno_run] at h₁
    obtain ⟨rfl, rfl⟩ := Prod.mk.inj (Except.ok.inj h₁)
    exact (run_pure_ok h).1

/-- The column of a named path is `_agtype_build_path` over the expressions of
the entities the path registers, one per element and in order, none of them
missing: naming a path puts each of its vertices in the join tree, so no argument
is a null constant. -/
theorem namedMatchPath_buildsFromEntities {name : String} {quals : List Qual} {tl' : List TargetEntry}
    (hname : path.varName = some name)
    (h : (transformMatchPath path tl).run s = .ok ((quals, tl'), s')) :
    ∃ ents exprs resno, s'.entities = s.entities ++ ents ∧ ents.length = path.path.length ∧
      3 ≤ ents.length ∧ ents.map (·.expr) = exprs.map some ∧
      tl'.getLast? =
        some { expr := .buildPath (.ofList exprs), resno, resname := some name, resjunk := false } := by
  obtain ⟨⟨ents, tl₁⟩, s₁, h₁, h⟩ := run_bind_ok h
  obtain ⟨hs₁, hlen, hjt⟩ := transformMatchEntities_named (by simp [hname]) h₁
  dsimp only at h
  rw [hname] at h
  obtain ⟨te, s₂, h₂, h⟩ := run_bind_ok h
  obtain ⟨h3, -, -, -, rfl⟩ := transformMatchCreatePathVariable_spec h₂
  obtain rfl := transformMatchCreatePathVariable_entry h₂
  obtain ⟨tl₂, s₃, h₃, h⟩ := run_bind_ok h
  obtain ⟨rfl, rfl⟩ := run_pure_ok h₃
  split at h
  · obtain ⟨⟨⟩, rfl⟩ := run_pure_ok h
    refine ⟨ents, _, s₁.pNextResno, hs₁, hlen, h3, ?_, List.getLast?_concat _⟩
    rw [List.map_map]
    refine List.map_congr_left fun x hx => ?_
    obtain ⟨e, he⟩ := Option.isSome_iff_exists.1 (hjt x hx)
    simp [he]
  · cases h

/-- `MATCH p = (a)-[r]->(:Person)`: naming the path puts its anonymous last vertex
in the join tree. -/
theorem toPersonNamedPath_buildsFromEntities :
    ∃ quals tl' s', (transformMatchPath { toPersonPath .right with varName := some "p" } []).run
        personGraphState = .ok ((quals, tl'), s') ∧
      ∃ ents exprs resno, s'.entities = personGraphState.entities ++ ents ∧
        ents.length = (toPersonPath .right).path.length ∧ 3 ≤ ents.length ∧
        ents.map (·.expr) = exprs.map some ∧
        tl'.getLast? =
          some { expr := .buildPath (.ofList exprs), resno, resname := some "p", resjunk := false } :=
  let ⟨quals, tl', s', h⟩ := toPersonPath_compiles .right (some "p")
  ⟨quals, tl', s', h,
    @namedMatchPath_buildsFromEntities { toPersonPath .right with varName := some "p" } _ _ _ _ _ _ rfl h⟩

end PathColumn

end AgeCypher
