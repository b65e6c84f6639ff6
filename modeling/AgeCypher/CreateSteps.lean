import Mathlib.Data.List.Forall2
import AgeCypher.ProjectionSteps
/-!
# What a `CREATE` pattern does to the target list and the registry

Every inserted element gets a column for its properties, numbered by the
counter, and a named one a placeholder column under its name; the plan records
those numbers (`prop_attr_num` one below, `tuple_position`, `path_attr_num`).
A vertex the registry already knows is read from the first column of its name
instead. Every element is registered, declared in the current clause.

* `transformCreateCypherNode_step`, `transformCreateCypherEdge_spec`: one element;
* `transformCypherCreatePattern_step`: the whole pattern, with `CreatePlanAddressed`
  saying that every position the plan records is that of the column built for it.
-/

namespace AgeCypher

/-- A visible entry of the list has number `pos` and a name `named` accepts. -/
def HasColumn (tl : List TargetEntry) (pos : Int) (named : Option String → Prop) : Prop :=
  ∃ te ∈ tl, (te.resno : Int) = pos ∧ named te.resname ∧ te.resjunk = false

/-- A name `get_next_default_alias` hands out. -/
def IsDefaultAlias (name : Option String) : Prop :=
  ∃ n : Nat, name = some (defaultAliasName n)

/-- The columns the executor reads for an inserted element: its properties at
`prop_attr_num + 1`, named by a default alias, and, for a variable, its
placeholder at `tuple_position`, named by the variable. -/
def TargetNodeAddressed (tl : List TargetEntry) (rel : CypherTargetNode) : Prop :=
  rel.flags.insert = true →
    HasColumn tl (rel.propAttrNum + 1) IsDefaultAlias ∧
      ∀ name, rel.variableName = some name → HasColumn tl rel.tuplePosition (· = some name)

/-- Every position a compiled path records is that of the column built for it:
the path's own placeholder when it is named, and the columns of its elements. -/
def CreatePathAddressed (tl : List TargetEntry) (path : CypherPath) (ccp : CypherCreatePath) :
    Prop :=
  (∀ name, path.varName = some name → HasColumn tl ccp.pathAttrNum (· = some name)) ∧
    ∀ rel ∈ ccp.targetNodes, TargetNodeAddressed tl rel

section Columns

variable {tl tl' : List TargetEntry} {pos : Int} {named : Option String → Prop}

/-- A column survives whatever keeps the shapes of the entries before it. -/
theorem HasColumn.of_shape_mem (h : HasColumn tl pos named)
    (hmem : ∀ sh ∈ tl.map TargetEntry.shape, sh ∈ tl'.map TargetEntry.shape) : HasColumn tl' pos named := by
  obtain ⟨te, hte, hno, hname, hjunk⟩ := h
  obtain ⟨te', hte', hsh⟩ := List.mem_map.1 (hmem _ (List.mem_map_of_mem _ hte))
  simp only [TargetEntry.shape, Prod.mk.injEq] at hsh
  exact ⟨te', hte', hsh.1 ▸ hno, hsh.2.1 ▸ hname, hsh.2.2 ▸ hjunk⟩

theorem HasColumn.of_appends {junk : Bool} {s s' : CypherParseState} (h : HasColumn tl pos named)
    (ha : AppendsEntries junk tl s tl' s') : HasColumn tl' pos named := by
  obtain ⟨new, hshape, -⟩ := ha
  exact h.of_shape_mem fun sh hsh => by rw [hshape, List.map_append]; exact List.mem_append_left _ hsh

theorem TargetNodeAddressed.of_appends {junk : Bool} {s s' : CypherParseState} {rel : CypherTargetNode}
    (h : TargetNodeAddressed tl rel) (ha : AppendsEntries junk tl s tl' s') :
    TargetNodeAddressed tl' rel := fun hins =>
  ⟨(h hins).1.of_appends ha, fun name hn => ((h hins).2 name hn).of_appends ha⟩

theorem CreatePathAddressed.of_appends {junk : Bool} {s s' : CypherParseState} {path : CypherPath}
    {ccp : CypherCreatePath} (h : CreatePathAddressed tl path ccp) (ha : AppendsEntries junk tl s tl' s') :
    CreatePathAddressed tl' path ccp :=
  ⟨fun name hn => (h.1 name hn).of_appends ha, fun rel hrel => (h.2 rel hrel).of_appends ha⟩

theorem HasColumn.append_single {te : TargetEntry} (hjunk : te.resjunk = false) :
    HasColumn (tl ++ [te]) te.resno (· = te.resname) :=
  ⟨te, by simp, rfl, rfl, hjunk⟩

end Columns

section CreateSteps

variable {junk : Bool} {p : TransformEntity → Prop} {tl : List TargetEntry}
  {s s' : CypherParseState}

theorem placeholderTargetEntry_spec {name : String} {te : TargetEntry}
    (h : (placeholderTargetEntry name).run s = .ok (te, s')) :
    te = { expr := .volatileWrapper .nullConst, resno := s.pNextResno, resname := some name,
           resjunk := false } ∧ s' = { s with pNextResno := s.pNextResno + 1 } := by
  replace ⟨resno, s₁, h₁, h⟩ := run_bind_ok h
  rw [nextResno_run] at h₁
  obtain ⟨rfl, rfl⟩ := Prod.mk.inj (Except.ok.inj h₁)
  obtain ⟨rfl, rfl⟩ := run_pure_ok h
  exact ⟨rfl, rfl⟩

/-- A placeholder is the next column, visible and named by the variable. -/
theorem placeholderTargetEntry_step {name : String} {te : TargetEntry}
    (h : (placeholderTargetEntry name).run s = .ok (te, s')) :
    ClauseStep false p tl s (tl ++ [te]) s' ∧ HasColumn (tl ++ [te]) te.resno (· = some name) := by
  obtain ⟨rfl, rfl⟩ := placeholderTargetEntry_spec h
  exact ⟨⟨.single rfl rfl (fun _ => rfl) rfl, .of_eq rfl rfl⟩, HasColumn.append_single rfl⟩

theorem ensureLabel_same {label : String} {kind : LabelKind} {u : Unit}
    (h : (ensureLabel label kind).run s = .ok (u, s')) : SameCounters s s' := by
  cases h
  dsimp only
  split <;> exact ⟨rfl, rfl, rfl⟩

theorem addLabelRelation_same {label : String} {kind : LabelKind} {u : Unit}
    (h : (addLabelRelation label kind).run s = .ok (u, s')) : SameCounters s s' := by
  replace ⟨st, s₁, h₁, h⟩ := run_bind_ok h
  obtain ⟨rfl, rfl⟩ := run_get_ok h₁
  replace ⟨i, s₂, h₂, h⟩ := run_bind_ok h
  rw [addRangeTableEntry_run] at h₂
  obtain ⟨rfl, rfl⟩ := Prod.mk.inj (Except.ok.inj h₂)
  obtain ⟨rfl, rfl⟩ := run_pure_ok h
  exact ⟨rfl, rfl, rfl⟩

theorem cypherCreateProperties_readOnly (relation : String) (props : Option CypherProps)
    (type : TransformEntityType) : ReadOnly (cypherCreateProperties relation props type) := by
  refine ReadOnly.bind ?_ fun _ => .pure
  split <;> first | exact .pure | exact .throw

theorem variableExists_readOnly (name : String) : ReadOnly (variableExists name) := by
  refine ReadOnly.bind (fun s a s' h => ?_) fun r => ?_
  · rw [findRte_run] at h
    exact (Prod.mk.inj (Except.ok.inj h)).2.symm
  · split
    · split <;> first | exact .pure | exact .throw
    · exact .pure

/-- The properties column of an inserted element is named by the next default
alias and numbered by the counter. -/
theorem propertiesColumn_ok {α : Type} {label : String} {props : Option CypherProps}
    {type : TransformEntityType} {k : String → Nat → Expr → TransformM α} {r : α}
    (h : (getNextDefaultAlias >>= fun aliasname => nextResno >>= fun resno =>
      cypherCreateProperties label props type >>= fun e => k aliasname resno e).run s =
        .ok (r, s')) :
    ∃ e, (k (defaultAliasName s.defaultAliasNum) s.pNextResno e).run
      { s with defaultAliasNum := s.defaultAliasNum + 1, pNextResno := s.pNextResno + 1 } =
        .ok (r, s') := by
  replace ⟨aliasname, s₁, h₁, h⟩ := run_bind_ok h
  rw [getNextDefaultAlias_run] at h₁
  obtain ⟨rfl, rfl⟩ := Prod.mk.inj (Except.ok.inj h₁)
  replace ⟨resno, s₂, h₂, h⟩ := run_bind_ok h
  rw [nextResno_run] at h₂
  obtain ⟨rfl, rfl⟩ := Prod.mk.inj (Except.ok.inj h₂)
  replace ⟨e, s₃, h₃, h⟩ := run_bind_ok h
  cases cypherCreateProperties_readOnly _ _ _ _ _ _ h₃
  exact ⟨e, h⟩

/-- Appending the properties column of an element. -/
theorem propertiesColumn_step (e : Expr) (n : Nat) (hs : SameCounters s s') :
    ClauseStep false p tl s
      (tl ++ [{ expr := e, resno := s'.pNextResno, resname := some (defaultAliasName n),
                resjunk := false }])
      { s' with defaultAliasNum := n + 1, pNextResno := s'.pNextResno + 1 } :=
  ⟨.single hs.resno rfl (fun _ => rfl) (by simp [hs.resno]), .of_eq hs.entities hs.entityId⟩

theorem transformCreateCypherExistingNode_spec {declared : Bool} {name : String} {node : CypherNode}
    {r : CypherTargetNode × CypherNode × List TargetEntry}
    (h : (transformCreateCypherExistingNode tl declared name node).run s = .ok (r, s')) :
    s' = s ∧ node.props = none ∧ node.label = none ∧
      r = ({ type := .vertex, flags := { existingVariableDeclaredSameClause := declared },
             dir := none, labelName := none, variableName := some name,
             tuplePosition := (getTargetEntryResno tl name).1, propAttrNum := 0, idExpr := none,
             relid := none }, node, (getTargetEntryResno tl name).2) := by
  unfold transformCreateCypherExistingNode at h
  cases hp : node.props <;> cases hl : node.label <;> simp [hp, hl] at h
  obtain ⟨rfl, rfl⟩ := h
  exact ⟨rfl, rfl, rfl, rfl⟩

/-- The two ways `transform_create_cypher_node` ends: a named vertex the registry
knows is an existing vertex, anything else a new one. -/
theorem transformCreateCypherNode_cases {node : CypherNode}
    {r : CypherTargetNode × CypherNode × List TargetEntry}
    (h : (transformCreateCypherNode tl node).run s = .ok (r, s')) :
    (∃ name e, node.name = some name ∧ findVariable s.entities name = some e ∧ e.type = .vertex ∧
      (transformCreateCypherExistingNode tl e.declaredInCurrentClause name node).run s = .ok (r, s')) ∨
    ((∀ name, node.name = some name → findVariable s.entities name = none) ∧
      (transformCreateCypherNewNode tl node).run s = .ok (r, s')) := by
  unfold transformCreateCypherNode at h
  cases hn : node.name with
  | none =>
    rw [hn] at h
    exact .inr ⟨by simp, h⟩
  | some name =>
    simp only [hn, StateT.run_bind, StateT.run_get, except_pure, except_ok_bind] at h
    cases hf : findVariable s.entities name with
    | none =>
      rw [hf] at h
      exact .inr ⟨by simpa using hf, h⟩
    | some e =>
      simp only [hf, bne_iff_ne, ne_eq, decide_eq_true_eq, ite_not] at h
      split at h
      · exact .inl ⟨name, e, rfl, hf, ‹_›, h⟩
      · cases h

theorem transformCreateCypherNewNode_spec {node : CypherNode}
    {r : CypherTargetNode × CypherNode × List TargetEntry}
    (h : (transformCreateCypherNewNode tl node).run s = .ok (r, s')) :
    ClauseStep false p tl s r.2.2 s' ∧ r.1.flags.insert = true ∧ r.1.variableName = node.name ∧
      TargetNodeAddressed r.2.2 r.1 := by
  replace ⟨u, s₁, h₁, h⟩ := run_bind_ok h
  replace ⟨u, s₂, h₂, h⟩ := run_bind_ok h
  have hsame := (ensureLabel_same h₁).trans (addLabelRelation_same h₂)
  obtain ⟨e, h⟩ := propertiesColumn_ok h
  have hprops : ClauseStep false p tl s _ _ := propertiesColumn_step e s₂.defaultAliasNum hsame
  -- the properties column, as `prop_attr_num + 1` addresses it
  have hcol : HasColumn
      (tl ++ [{ expr := e, resno := s₂.pNextResno,
                resname := some (defaultAliasName s₂.defaultAliasNum),
                resjunk := false }])
      ((s₂.pNextResno : Int) - 1 + 1) IsDefaultAlias :=
    ⟨_, List.mem_append_right _ (List.mem_singleton_self _), by simp, ⟨_, rfl⟩, rfl⟩
  dsimp only at h
  cases hn : node.name with
  | none =>
    rw [hn] at h
    obtain ⟨rfl, rfl⟩ := run_pure_ok h
    exact ⟨hprops, rfl, rfl, fun _ => ⟨hcol, fun name hname => nomatch hname⟩⟩
  | some name =>
    rw [hn] at h
    replace ⟨te, s₃, h₃, h⟩ := run_bind_ok h
    obtain ⟨hph, hphcol⟩ := placeholderTargetEntry_step h₃
    obtain ⟨rfl, rfl⟩ := run_pure_ok h
    refine ⟨hprops.trans hph, rfl, rfl, fun _ => ⟨hcol.of_appends hph.appends, ?_⟩⟩
    rintro _ ⟨⟩
    exact hphcol

/-- One element of a `CREATE` path: the columns it appends and the positions
its target node records. -/
theorem transformCreateCypherNode_step {node : CypherNode}
    {r : CypherTargetNode × CypherNode × List TargetEntry}
    (h : (transformCreateCypherNode tl node).run s = .ok (r, s')) :
    ClauseStep false p tl s r.2.2 s' ∧ TargetNodeAddressed r.2.2 r.1 := by
  rcases transformCreateCypherNode_cases h with ⟨name, e, -, -, -, h⟩ | ⟨-, h⟩
  · obtain ⟨rfl, -, -, rfl⟩ := transformCreateCypherExistingNode_spec h
    exact ⟨.of_shape (getTargetEntryResno_shape tl name), fun hins => nomatch hins⟩
  · obtain ⟨hstep, -, -, haddr⟩ := transformCreateCypherNewNode_spec h
    exact ⟨hstep, haddr⟩

theorem createEdgeVariable_spec {name : Option String} {r : Option String × Int × List TargetEntry}
    (h : (createEdgeVariable tl name).run s = .ok (r, s')) :
    r.1 = name ∧ ClauseStep false p tl s r.2.2 s' ∧
      ∀ n, name = some n → HasColumn r.2.2 r.2.1 (· = some n) := by
  cases name with
  | none =>
    obtain ⟨rfl, rfl⟩ := run_pure_ok h
    exact ⟨rfl, .of_same (.refl _), fun _ hn => nomatch hn⟩
  | some name =>
    replace ⟨b, s₁, h₁, h⟩ := run_bind_ok h
    cases variableExists_readOnly _ _ _ _ h₁
    split at h
    · simp at h
    · replace ⟨te, s₂, h₂, h⟩ := run_bind_ok h
      obtain ⟨rfl, rfl⟩ := placeholderTargetEntry_spec h₂
      obtain ⟨rfl, rfl⟩ := run_pure_ok h
      refine ⟨rfl, ⟨.single rfl rfl (fun _ => rfl) rfl, .of_eq rfl rfl⟩, ?_⟩
      rintro n ⟨⟩
      exact HasColumn.append_single rfl

theorem transformCreateCypherEdge_spec {edge : CypherRelationship}
    {r : CypherTargetNode × List TargetEntry}
    (h : (transformCreateCypherEdge tl edge).run s = .ok (r, s')) :
    ClauseStep false p tl s r.2 s' ∧ r.1.flags.insert = true ∧ r.1.variableName = edge.name ∧
      TargetNodeAddressed r.2 r.1 := by
  replace ⟨⟨v, pos, tl₁⟩, s₁, h₁, h⟩ := run_bind_ok h
  obtain ⟨rfl, hvar, hcol⟩ := createEdgeVariable_spec (p := p) h₁
  dsimp only at h
  split at h
  · simp at h
  split at h
  · replace ⟨u, s₂, h₂, h⟩ := run_bind_ok h
    replace ⟨u, s₃, h₃, h⟩ := run_bind_ok h
    have hsame := (ensureLabel_same h₂).trans (addLabelRelation_same h₃)
    obtain ⟨e, h⟩ := propertiesColumn_ok h
    obtain ⟨rfl, rfl⟩ := run_pure_ok h
    have hprops : ClauseStep false p tl₁ s₁ _ _ := propertiesColumn_step e s₃.defaultAliasNum hsame
    refine ⟨hvar.trans hprops, rfl, rfl, fun _ => ⟨⟨_, List.mem_append_right _ (List.mem_singleton_self _),
      by simp, ⟨_, rfl⟩, rfl⟩, fun name hn => (hcol name hn).of_appends hprops.appends⟩⟩
  · simp at h

/-- Marking an element as part of a named path changes no position. -/
theorem TargetNodeAddressed.inPath {tl : List TargetEntry} {rel : CypherTargetNode} (inPath : Bool)
    (h : TargetNodeAddressed tl rel) :
    TargetNodeAddressed tl (if inPath then { rel with flags.inPathVar := true } else rel) := by
  cases inPath
  · exact h
  · exact h

/-- The elements of a path are registered in order, declared in the current
clause, and each target node addresses its columns. -/
theorem transformCypherCreatePathElements_step {inPath : Bool} {els : List PathElement}
    {r : List CypherTargetNode × List TargetEntry}
    (h : (transformCypherCreatePathElements inPath els tl).run s = .ok (r, s')) :
    ClauseStep false (·.declaredInCurrentClause = true) tl s r.2 s' ∧
      ∀ rel ∈ r.1, TargetNodeAddressed r.2 rel := by
  induction els generalizing tl s r with
  | nil =>
    obtain ⟨rfl, rfl⟩ := run_pure_ok h
    exact ⟨.of_same (.refl _), fun _ hrel => nomatch hrel⟩
  | cons el rest ih =>
    cases el with
    | node node =>
      replace ⟨⟨rel, node', tl₁⟩, s₁, h₁, h⟩ := run_bind_ok h
      replace ⟨ent, s₂, h₂, h⟩ := run_bind_ok h
      replace ⟨⟨rels, tl₂⟩, s₃, h₃, h⟩ := run_bind_ok h
      obtain ⟨rfl, rfl⟩ := run_pure_ok h
      obtain ⟨hstep₁, haddr₁⟩ := transformCreateCypherNode_step h₁
      obtain ⟨hstep₃, haddr₃⟩ := ih h₃
      have hrest := (registerEntity_step h₂).trans hstep₃
      refine ⟨hstep₁.trans hrest, ?_⟩
      rintro _ (_ | ⟨_, hrel⟩)
      · exact (haddr₁.inPath inPath).of_appends hrest.appends
      · exact haddr₃ _ hrel
    | rel edge =>
      replace ⟨⟨rel, tl₁⟩, s₁, h₁, h⟩ := run_bind_ok h
      replace ⟨ent, s₂, h₂, h⟩ := run_bind_ok h
      replace ⟨⟨rels, tl₂⟩, s₃, h₃, h⟩ := run_bind_ok h
      obtain ⟨rfl, rfl⟩ := run_pure_ok h
      obtain ⟨hstep₁, -, -, haddr₁⟩ := transformCreateCypherEdge_spec h₁
      obtain ⟨hstep₃, haddr₃⟩ := ih h₃
      have hrest := (registerEntity_step h₂).trans hstep₃
      refine ⟨hstep₁.trans hrest, ?_⟩
      rintro _ (_ | ⟨_, hrel⟩)
      · exact (haddr₁.inPath inPath).of_appends hrest.appends
      · exact haddr₃ _ hrel

theorem transformCypherCreatePath_step {path : CypherPath} {r : CypherCreatePath × List TargetEntry}
    (h : (transformCypherCreatePath tl path).run s = .ok (r, s')) :
    ClauseStep false (·.declaredInCurrentClause = true) tl s r.2 s' ∧ CreatePathAddressed r.2 path r.1 := by
  replace ⟨⟨nodes, tl₁⟩, s₁, h₁, h⟩ := run_bind_ok h
  obtain ⟨hstep, haddr⟩ := transformCypherCreatePathElements_step h₁
  cases hv : path.varName with
  | none =>
    simp only [hv] at h
    obtain ⟨rfl, rfl⟩ := run_pure_ok h
    exact ⟨hstep, ⟨fun name hn => (nomatch hn.symm.trans hv), haddr⟩⟩
  | some name =>
    simp only [hv] at h
    split at h
    · simp at h
    · replace ⟨te, s₂, h₂, h⟩ := run_bind_ok h
      obtain ⟨hph, hphcol⟩ := placeholderTargetEntry_step h₂
      obtain ⟨rfl, rfl⟩ := run_pure_ok h
      refine ⟨hstep.trans hph, ⟨fun n hn => ?_, fun rel hrel => (haddr rel hrel).of_appends hph.appends⟩⟩
      obtain rfl : name = n := Option.some.inj (hv.symm.trans hn)
      exact hphcol

/-- A `CREATE` pattern appends visible columns, registers its elements declared
in the current clause, and every path it compiles addresses its columns. -/
theorem transformCypherCreatePattern_step {pattern : List CypherPath}
    {r : List CypherCreatePath × List TargetEntry}
    (h : (transformCypherCreatePattern pattern tl).run s = .ok (r, s')) :
    ClauseStep false (·.declaredInCurrentClause = true) tl s r.2 s' ∧
      List.Forall₂ (CreatePathAddressed r.2) pattern r.1 := by
  induction pattern generalizing tl s r with
  | nil =>
    obtain ⟨rfl, rfl⟩ := run_pure_ok h
    exact ⟨.of_same (.refl _), .nil⟩
  | cons path pattern ih =>
    replace ⟨⟨ccp, tl₁⟩, s₁, h₁, h⟩ := run_bind_ok h
    replace ⟨⟨paths, tl₂⟩, s₂, h₂, h⟩ := run_bind_ok h
    obtain ⟨rfl, rfl⟩ := run_pure_ok h
    obtain ⟨hstep₁, haddr₁⟩ := transformCypherCreatePath_step h₁
    obtain ⟨hstep₂, haddr₂⟩ := ih h₂
    exact ⟨hstep₁.trans hstep₂, .cons (haddr₁.of_appends hstep₂.appends) haddr₂⟩

end CreateSteps

end AgeCypher
