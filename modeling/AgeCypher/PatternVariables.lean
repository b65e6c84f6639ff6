import AgeCypher.PatternScope
/-!
# One variable, one entity

Within a `MATCH` pattern, every occurrence of a variable after its first is
resolved to the expression of the first: `transform_cypher_node` and
`transform_cypher_edge` ask `colNameToVar` first and `findTarget` next, and the
first occurrence was either resolved the same way or given a new relation and a
column under the variable's name. What a later step adds cannot hide a name
that resolves: target entries are appended, and a new relation adds columns to
the namespace only for a vertex (`addRTEtoQuery(pstate, rte, true, true, true)`),
under the names `id` and `properties` and, as for every relation, the names of
the system columns. Those names are the exception: after the first vertex of a
pattern, a variable named `id` or `xmin` is that vertex's column.

* `resolveName`: what a named element resolves to, in a state and a target
  list, before a relation is made for it;
* `KeepsNames`: every name that resolves, other than a column of a vertex
  relation, keeps its expression; every step of the pattern transform keeps
  the names;
* `matchPatternVariables_oneExpression`: the entities a `MATCH` pattern
  registers under one variable, neither a default alias nor a column of a
  vertex relation, all have the same expression.
-/

namespace AgeCypher

/-- The expression an element named `n` resolves to, in the order of
`transform_cypher_node`: the namespaces first, then the target list; `none`
when neither has the name, or when the namespace lookup fails. -/
def resolveName (s : CypherParseState) (tl : List TargetEntry) (n : String) : Option Expr :=
  match colNameToVarLevels n 0 (s.pNamespace :: s.parentNamespaces) with
  | .ok (some e) => some e
  | .ok none => (findTarget tl n).map (·.expr)
  | .error _ => none

/-- The names a vertex relation answers for: its columns `id` and
`properties`, and the system columns `scanRTEForColumn` finds in every
relation. -/
def VertexRelationColumn (n : String) : Prop :=
  n = "id" ∨ n = "properties" ∨ (systemColumnByName n).isSome

instance : DecidablePred VertexRelationColumn :=
  fun _ => inferInstanceAs (Decidable (_ ∨ _ ∨ _))

/-- From `(s, tl)` to `(s', tl')`, every name other than the columns of a
vertex relation that resolves keeps its expression. -/
def KeepsNames (s : CypherParseState) (tl : List TargetEntry) (s' : CypherParseState)
    (tl' : List TargetEntry) : Prop :=
  ∀ n x, ¬VertexRelationColumn n → resolveName s tl n = some x → resolveName s' tl' n = some x

/-- The entities registered since `s₀` under a variable, neither a default
alias nor a column of a vertex relation, each have an expression, and the
variable resolves to it in `(s, tl)`. -/
def NamesResolved (s₀ s : CypherParseState) (tl : List TargetEntry) : Prop :=
  ∃ new, s.entities = s₀.entities ++ new ∧ ∀ e ∈ new, ∀ n, e.name = some n →
    ¬IsDefaultAlias (some n) → ¬VertexRelationColumn n →
      ∃ x, e.expr = some x ∧ resolveName s tl n = some x

/-! ## Resolution through appended relations and entries -/

section Resolve

variable {s s' : CypherParseState} {tl tl' : List TargetEntry} {n : String}

/-- A namespace item whose columns do not answer for `n` changes nothing at the
end of a level. -/
theorem colNameToVarLevel_append_silent {levelsUp : Nat} {x : NamespaceItem}
    (hx : x.colsVisible = true → scanRTEForColumn levelsUp x.rtIndex x.rte n = .ok none) :
    ∀ ns : List NamespaceItem, colNameToVarLevel levelsUp n (ns ++ [x]) = colNameToVarLevel levelsUp n ns
  | [] => by
    rw [List.nil_append, colNameToVarLevel, colNameToVarLevel]
    split
    · rw [hx ‹_›]
      rfl
    · rfl
  | y :: ns => by
    rw [List.cons_append, colNameToVarLevel, colNameToVarLevel, colNameToVarLevel_append_silent hx ns]

theorem scanRTEForColumn_labelRte_vertex {levelsUp rtIndex : Nat} {aliasname label : String}
    (hn : ¬VertexRelationColumn n) :
    scanRTEForColumn levelsUp rtIndex (labelRte aliasname label .vertex) n = .ok none := by
  simp only [VertexRelationColumn, not_or, Option.not_isSome_iff_eq_none] at hn
  obtain ⟨hid, hprops, hsys⟩ := hn
  simp [scanRTEForColumn, labelRte, List.enum_cons, List.filter_cons, Ne.symm hid, Ne.symm hprops,
    hsys]

theorem findTarget_append_of_some {te : TargetEntry} (h : findTarget tl n = some te)
    (extra : List TargetEntry) : findTarget (tl ++ extra) n = some te := by
  rw [findTarget, List.find?_append, ← findTarget, h]
  rfl

/-- A name that resolves keeps its expression when the lookup in the namespaces
answers as before and entries are appended to the target list. -/
theorem resolveName_append {x : Expr}
    (hlev : colNameToVarLevels n 0 (s'.pNamespace :: s'.parentNamespaces) =
      colNameToVarLevels n 0 (s.pNamespace :: s.parentNamespaces))
    (extra : List TargetEntry) (h : resolveName s tl n = some x) :
    resolveName s' (tl ++ extra) n = some x := by
  unfold resolveName at h ⊢
  rw [hlev]
  cases hc : colNameToVarLevels n 0 (s.pNamespace :: s.parentNamespaces) with
  | error e => rw [hc] at h; cases h
  | ok v =>
    rw [hc] at h
    cases v with
    | none =>
      obtain ⟨te, hte, rfl⟩ := Option.map_eq_some'.1 h
      rw [findTarget_append_of_some hte]
      rfl
    | some e => exact h

/-- A step that leaves the namespaces alone and appends to the target list
keeps the names. -/
theorem keepsNames_of_append (hns : s'.pNamespace = s.pNamespace)
    (hpar : s'.parentNamespaces = s.parentNamespaces) (extra : List TargetEntry) :
    KeepsNames s tl s' (tl ++ extra) :=
  fun _ _ _ => resolveName_append (by rw [hns, hpar]) extra

theorem KeepsNames.refl (s : CypherParseState) (tl : List TargetEntry) : KeepsNames s tl s tl :=
  fun _ _ _ h => h

theorem KeepsNames.trans {s₁ : CypherParseState} {tl₁ : List TargetEntry}
    (h₁ : KeepsNames s tl s₁ tl₁) (h₂ : KeepsNames s₁ tl₁ s' tl') : KeepsNames s tl s' tl' :=
  fun n x hn h => h₂ n x hn (h₁ n x hn h)

/-- The relation of a new element: a vertex relation's columns, visible, are
`id` and `properties`; an edge relation's columns are not visible. -/
theorem colNameToVarLevels_addElement {k : ElementKind}
    (hk : k.colsVisible = true → k.labelKind = .vertex) (hn : ¬VertexRelationColumn n) {i : Nat} {name label : String} {ns : List NamespaceItem} {outer : List (List NamespaceItem)} :
    colNameToVarLevels n 0
        ((ns ++ [⟨i, labelRte name label k.labelKind, true, k.colsVisible⟩]) :: outer) =
      colNameToVarLevels n 0 (ns :: outer) := by
  rw [colNameToVarLevels, colNameToVarLevels, colNameToVarLevel_append_silent]
  intro hv
  rw [hk hv]
  exact scanRTEForColumn_labelRte_vertex hn

/-- A new relation for an element keeps the names, and its name, which resolved
to nothing, now resolves to the element's expression. -/
theorem addElementRelation_keepsNames {k : ElementKind}
    (hk : k.colsVisible = true → k.labelKind = .vertex) {name label : String}
    {r : Expr × String × List TargetEntry}
    (h : (addElementRelation k name label tl).run s = .ok (r, s')) :
    r.2.1 = name ∧ KeepsNames s tl s' r.2.2 ∧ s'.entities = s.entities ∧
      (colNameToVarLevels name 0 (s.pNamespace :: s.parentNamespaces) = .ok none →
        findTarget tl name = none → ¬VertexRelationColumn name →
          resolveName s' r.2.2 name = some r.1) := by
  rw [addElementRelation_run] at h
  obtain ⟨rfl, rfl⟩ := Prod.mk.inj (Except.ok.inj h)
  refine ⟨rfl, fun m x hn => resolveName_append (colNameToVarLevels_addElement hk hn) _,
    rfl, fun hc ht hn => ?_⟩
  unfold resolveName
  rw [colNameToVarLevels_addElement hk hn, hc]
  simp only [findTarget, List.find?_append] at ht ⊢
  simp [ht]

/-- The variable of an element resolves, after the element, to the element's
expression, unless it is a default alias or a column of a vertex relation. -/
theorem transformElementVariable_keepsNames {k : ElementKind}
    (hk : k.colsVisible = true → k.labelKind = .vertex) {name : Option String} {label : String}
    {hasProps : Bool} {r : Expr × String × List TargetEntry}
    (h : (transformElementVariable k name label hasProps tl).run s = .ok (r, s')) :
    KeepsNames s tl s' r.2.2 ∧ s'.entities = s.entities ∧
      (¬IsDefaultAlias (some r.2.1) → ¬VertexRelationColumn r.2.1 →
        resolveName s' r.2.2 r.2.1 = some r.1) := by
  rcases transformElementVariable_cases h with ⟨n, e, -, hc, rfl, rfl⟩ |
    ⟨n, te, -, hc, ht, rfl, rfl⟩ | ⟨n, s₁, hs₁, h⟩
  · -- a column of the namespaces
    refine ⟨.refl _ _, rfl, fun _ _ => ?_⟩
    rw [resolveName, hc]
  · -- an entry of the target list
    refine ⟨.refl _ _, rfl, fun _ _ => ?_⟩
    rw [resolveName, hc, ht]
    rfl
  · obtain ⟨hname, hkeep, he, hown⟩ := addElementRelation_keepsNames hk h
    rcases hs₁ with ⟨-, hc, ht, -, rfl⟩ | ⟨-, rfl, rfl⟩
    · -- a new variable
      exact ⟨hkeep, he, fun _ => hname ▸ hown hc ht⟩
    · -- an anonymous element, under the alias it mints
      exact ⟨hkeep, he, fun hnd => absurd ⟨_, congrArg some hname⟩ hnd⟩

theorem vertexElement_hidesNoName : vertexElement.colsVisible = true → vertexElement.labelKind = .vertex :=
  fun _ => rfl

theorem edgeElement_hidesNoName : edgeElement.colsVisible = true → edgeElement.labelKind = .vertex :=
  fun h => nomatch h

/-- The vertex of an element, when it is in the join tree, as a named vertex is. -/
theorem transformCypherNode_keepsNames {node : CypherNode} {b : Bool}
    {r : Option Expr × CypherNode × List TargetEntry} (hb : node.name.isSome → b = true)
    (h : (transformCypherNode node tl b).run s = .ok (r, s')) :
    KeepsNames s tl s' r.2.2 ∧ s'.entities = s.entities ∧
      ∀ n, r.2.1.name = some n → ¬IsDefaultAlias (some n) → ¬VertexRelationColumn n →
        ∃ x, r.1 = some x ∧ resolveName s' r.2.2 n = some x := by
  obtain ⟨label, s₁, h₁, h⟩ := run_bind_ok h
  cases transformElementLabel_readOnly _ _ _ _ _ h₁
  split at h
  · obtain ⟨⟨e, n, tl₁⟩, s₂, h₂, h⟩ := run_bind_ok h
    obtain ⟨rfl, rfl⟩ := run_pure_ok h
    obtain ⟨hkeep, he, hown⟩ := transformElementVariable_keepsNames vertexElement_hidesNoName h₂
    refine ⟨hkeep, he, fun m hm hnd hn => ?_⟩
    cases hm
    exact ⟨e, rfl, hown hnd hn⟩
  · obtain ⟨rfl, rfl⟩ := run_pure_ok h
    -- a vertex out of the join tree is anonymous
    exact ⟨.refl _ _, rfl, fun _ hn => absurd (hb (Option.isSome_iff_exists.2 ⟨_, hn⟩)) ‹¬b = true›⟩

theorem transformCypherEdge_keepsNames {rel : CypherRelationship}
    {r : Expr × CypherRelationship × List TargetEntry}
    (h : (transformCypherEdge rel tl).run s = .ok (r, s')) :
    KeepsNames s tl s' r.2.2 ∧ s'.entities = s.entities ∧
      ∀ n, r.2.1.name = some n → ¬IsDefaultAlias (some n) → ¬VertexRelationColumn n →
        ∃ x, some r.1 = some x ∧ resolveName s' r.2.2 n = some x := by
  unfold transformCypherEdge at h
  split at h
  · cases h
  · obtain ⟨label, s₁, h₁, h⟩ := run_bind_ok h
    cases transformElementLabel_readOnly _ _ _ _ _ h₁
    obtain ⟨⟨e, n, tl₁⟩, s₂, h₂, h⟩ := run_bind_ok h
    obtain ⟨rfl, rfl⟩ := run_pure_ok h
    obtain ⟨hkeep, he, hown⟩ := transformElementVariable_keepsNames edgeElement_hidesNoName h₂
    refine ⟨hkeep, he, fun m hm hnd hn => ?_⟩
    cases hm
    exact ⟨e, rfl, hown hnd hn⟩

end Resolve

/-! ## The pattern keeps every variable on its first expression -/

section Pattern

variable {s₀ s s' : CypherParseState} {tl tl' : List TargetEntry}

theorem NamesResolved.refl (s : CypherParseState) (tl : List TargetEntry) : NamesResolved s s tl :=
  ⟨[], (List.append_nil _).symm, fun _ h => nomatch h⟩

theorem NamesResolved.keep (h : NamesResolved s₀ s tl) (hk : KeepsNames s tl s' tl')
    (he : s'.entities = s.entities) : NamesResolved s₀ s' tl' := by
  obtain ⟨new, hnew, hres⟩ := h
  refine ⟨new, he.trans hnew, fun e he' n hn hnd hcol => ?_⟩
  obtain ⟨x, hx, hr⟩ := hres e he' n hn hnd hcol
  exact ⟨x, hx, hk n x hcol hr⟩

/-- One cell of the element loop: the entity registered resolves as its
variable does. -/
theorem NamesResolved.cell {v : TransformEntity} (h : NamesResolved s₀ s tl)
    (hk : KeepsNames s tl s' tl') (he : s'.entities = s.entities ++ [v])
    (hv : ∀ n, v.name = some n → ¬IsDefaultAlias (some n) → ¬VertexRelationColumn n →
      ∃ x, v.expr = some x ∧ resolveName s' tl' n = some x) : NamesResolved s₀ s' tl' := by
  obtain ⟨new, hnew, hres⟩ := h
  refine ⟨new ++ [v], by rw [he, hnew, List.append_assoc], fun e he' => ?_⟩
  rcases List.mem_append.1 he' with he' | he'
  · intro n hn hnd hcol
    obtain ⟨x, hx, hr⟩ := hres e he' n hn hnd hcol
    exact ⟨x, hx, hk n x hcol hr⟩
  · exact List.mem_singleton.1 he' ▸ hv

theorem transformMatchEntities_namesResolved (path : CypherPath) (b : Bool) (els : List PathElement)
    (tl : List TargetEntry) :
    ∀ {s : CypherParseState} {r : List TransformEntity × List TargetEntry} {s' : CypherParseState},
      NamesResolved s₀ s tl → (transformMatchEntities path b els tl).run s = .ok (r, s') →
        NamesResolved s₀ s' r.2 := by
  induction b, els, tl using transformMatchEntities.induct path with
  | case1 b tl =>
    intro s r s' hinv h
    rw [transformMatchEntities] at h
    obtain ⟨rfl, rfl⟩ := run_pure_ok h
    exact hinv
  | case2 node rest tl ih =>
    intro s r s' hinv h
    rw [transformMatchEntities] at h
    replace ⟨⟨e, node', tl₁⟩, s₁, h₁, h⟩ := run_bind_ok h
    replace ⟨entity, s₂, h₂, h⟩ := run_bind_ok h
    replace ⟨u, s₃, h₃, h⟩ := run_bind_ok h
    replace ⟨⟨es, tl₂⟩, s₄, h₄, h⟩ := run_bind_ok h
    obtain ⟨rfl, rfl⟩ := run_pure_ok h
    rw [registerEntity_run] at h₂
    obtain ⟨rfl, rfl⟩ := Prod.mk.inj (Except.ok.inj h₂)
    obtain ⟨pcs, hs₃⟩ := addPropertyConstraint_scope h₃
    -- a named vertex is in the join tree
    obtain ⟨hkeep, he, hown⟩ := transformCypherNode_keepsNames
      (fun hn => by simp only [includeNodeInJoinTree, hn, Bool.or_true, Bool.true_or]) h₁
    have hinv₃ : NamesResolved s₀ s₃ tl₁ := by
      subst hs₃
      exact hinv.cell (v := makeTransformEntity _ (.node node') e) hkeep (congrArg (· ++ _) he) hown
    exact (ih _ hinv₃ h₄ :)
  | case3 rel rest tl ih =>
    intro s r s' hinv h
    rw [transformMatchEntities] at h
    replace ⟨⟨e, rel', tl₁⟩, s₁, h₁, h⟩ := run_bind_ok h
    replace ⟨entity, s₂, h₂, h⟩ := run_bind_ok h
    replace ⟨u, s₃, h₃, h⟩ := run_bind_ok h
    replace ⟨⟨es, tl₂⟩, s₄, h₄, h⟩ := run_bind_ok h
    obtain ⟨rfl, rfl⟩ := run_pure_ok h
    rw [registerEntity_run] at h₂
    obtain ⟨rfl, rfl⟩ := Prod.mk.inj (Except.ok.inj h₂)
    obtain ⟨pcs, hs₃⟩ := addPropertyConstraint_scope h₃
    obtain ⟨hkeep, he, hown⟩ := transformCypherEdge_keepsNames h₁
    have hinv₃ : NamesResolved s₀ s₃ tl₁ := by
      subst hs₃
      exact hinv.cell (v := makeTransformEntity _ (.rel rel') (some e)) hkeep (congrArg (· ++ _) he) hown
    exact (ih _ hinv₃ h₄ :)
  | case4 b hd tl tl' hnode hrel =>
    intro s r s' hinv h
    rw [transformMatchEntities] at h
    · cases h
    · exact hnode
    · exact hrel

theorem transformMatchPath_namesResolved {path : CypherPath} {r : List Qual × List TargetEntry}
    (hinv : NamesResolved s₀ s tl) (h : (transformMatchPath path tl).run s = .ok (r, s')) :
    NamesResolved s₀ s' r.2 := by
  obtain ⟨⟨es, tl₁⟩, s₁, h₁, h⟩ := run_bind_ok h
  have hinv₁ := transformMatchEntities_namesResolved path true path.path tl hinv h₁
  dsimp only at h
  split at h
  · -- a named path: its column is appended
    obtain ⟨te, s₂, h₂, h⟩ := run_bind_ok h
    obtain ⟨-, -, -, -, rfl⟩ := transformMatchCreatePathVariable_spec h₂
    obtain ⟨tl₂, s₃, h₃, h⟩ := run_bind_ok h
    obtain ⟨rfl, rfl⟩ := run_pure_ok h₃
    split at h
    · obtain ⟨rfl, rfl⟩ := run_pure_ok h
      exact hinv₁.keep (keepsNames_of_append rfl rfl _) rfl
    · cases h
  · obtain ⟨tl₂, s₃, h₃, h⟩ := run_bind_ok h
    obtain ⟨rfl, rfl⟩ := run_pure_ok h₃
    split at h
    · obtain ⟨rfl, rfl⟩ := run_pure_ok h
      exact hinv₁
    · cases h

theorem transformMatchPaths_namesResolved {pattern : List CypherPath}
    {r : List Qual × List TargetEntry} (hinv : NamesResolved s₀ s tl)
    (h : (transformMatchPaths pattern tl).run s = .ok (r, s')) : NamesResolved s₀ s' r.2 := by
  induction pattern generalizing tl s r s' with
  | nil =>
    obtain ⟨rfl, rfl⟩ := run_pure_ok h
    exact hinv
  | cons path pattern ih =>
    obtain ⟨⟨q, tl₁⟩, s₁, h₁, h⟩ := run_bind_ok h
    obtain ⟨⟨qs, tl₂⟩, s₂, h₂, h⟩ := run_bind_ok h
    obtain ⟨rfl, rfl⟩ := run_pure_ok h
    exact (ih (transformMatchPath_namesResolved hinv h₁) h₂ :)

theorem transformMatchPattern_namesResolved {pattern : List CypherPath} {q : Query}
    (hinv : NamesResolved s₀ s tl) (h : (transformMatchPattern pattern tl).run s = .ok (q, s')) :
    NamesResolved s₀ s' q.targetList := by
  obtain ⟨⟨quals, tl₁⟩, s₁, h₁, h⟩ := run_bind_ok h
  obtain ⟨u, s₂, h₂, h⟩ := run_bind_ok h
  cases transformQuals_readOnly _ _ _ _ h₂
  obtain ⟨st, s₃, h₃, h⟩ := run_bind_ok h
  obtain ⟨rfl, rfl⟩ := run_get_ok h₃
  obtain ⟨rfl, rfl⟩ := run_pure_ok h
  exact transformMatchPaths_namesResolved hinv h₁

/-- Within a `MATCH` pattern, a variable names one entity: every entity the
pattern registers under the variable `n` has the same expression, the one `n`
resolves to in the query's final state. The variable must not be a default
alias, which an anonymous element may mint too, nor a column of a vertex
relation (`id`, `properties` or a system column such as `xmin`), which a later
occurrence resolves to the column of the first vertex of the pattern. -/
theorem matchPatternVariables_oneExpression (pattern : List CypherPath) (tl : List TargetEntry)
    (s s' : CypherParseState) (q : Query)
    (h : (transformMatchPattern pattern tl).run s = .ok (q, s')) :
    ∃ new, s'.entities = s.entities ++ new ∧ ∀ e₁ ∈ new, ∀ e₂ ∈ new, ∀ n,
      e₁.name = some n → e₂.name = some n → ¬IsDefaultAlias (some n) →
        ¬VertexRelationColumn n → e₁.expr = e₂.expr := by
  obtain ⟨new, he, hres⟩ := transformMatchPattern_namesResolved (.refl s tl) h
  refine ⟨new, he, fun e₁ h₁ e₂ h₂ n hn₁ hn₂ hnd hcol => ?_⟩
  obtain ⟨x₁, hx₁, hr₁⟩ := hres e₁ h₁ n hn₁ hnd hcol
  obtain ⟨x₂, hx₂, hr₂⟩ := hres e₂ h₂ n hn₂ hnd hcol
  calc e₁.expr = some x₁ := hx₁
    _ = resolveName s' q.targetList n := hr₁.symm
    _ = some x₂ := hr₂
    _ = e₂.expr := hx₂.symm

/-- `(a)-[]->(b)-[]->(a)`: a cycle through one vertex variable. -/
def cycleThroughA : CypherPath :=
  ⟨none, [.node ⟨some "a", none, none⟩, .rel ⟨none, none, none, false, .right⟩,
    .node ⟨some "b", none, none⟩, .rel ⟨none, none, none, false, .right⟩,
    .node ⟨some "a", none, none⟩]⟩

theorem cycleThroughA_compiles :
    ∃ q s', (transformMatchPattern [cycleThroughA] []).run personGraphState = .ok (q, s') := by
  simp only [cycleThroughA, transformMatchPattern, transformMatchPaths, transformQuals_run,
    transformMatchPath, transformMatchEntities, transformCypherNode, transformElementLabel,
    vertexElement, includeNodeInJoinTree, Option.isSome_none, Option.isSome_some,
    Bool.or_false, Bool.or_eq_true, Bool.false_eq_true, or_true, or_false, ↓reduceIte,
    transformElementVariable, findTarget, List.find?_nil, beq_iff_eq, String.reduceAppend,
    addPropertyConstraint, transformCypherEdge, edgeElement, findVariable, TransformEntity.name,
    TransformEntity.type, bne_iff_ne, ne_eq, Bool.not_eq_eq_eq_not, Bool.not_true, Bool.or_self,
    makePathJoinQuals, gt_iff_lt, personGraphState, rootParseState, run_bind, run_pure,
    colNameToVar_run, colNameToVarLevels, except_pure, Nat.zero_add, except_ok_bind,
    colNameToVarLevel, except_map_ok, run_get, reduceCtorEq, addElementRelation_run,
    List.nil_append, labelRte, graphidOid, agtypeOid, List.length_nil, Nat.reduceAdd,
    registerEntity_run, makeTransformEntity, searchLabelNameGraphCache_run, ↓List.find?_cons,
    Bool.not_false, Option.some_beq_some, String.reduceBEq, Bool.and_false, scanRTEForColumn,
    systemColumnByName, systemColumns, SystemColumn.name, Option.map_none',
    List.zip_cons_cons, List.zip_nil_right, List.enum_cons, List.enumFrom_cons, List.enumFrom_nil,
    ↓List.filter_cons, List.filter_nil, List.cons_append, List.length_cons, List.lookup_cons,
    beq_self_eq_true, Nat.lt_irrefl, joinLoop, joinLoopBody, joinLoopInit, lookAhead,
    makeJoinConditionForEdge, makeDirectedEdgeJoinConditions, TransformEntity.inJoinTree,
    joinToEntity, List.append_nil, labelFilterQuals, Option.isNone_none, Bool.and_self,
    isDefaultLabelVertex, List.map_cons, List.map_nil, Bool.and_true, Bool.true_and,
    decide_False, decide_True]
  exact ⟨_, _, rfl⟩

theorem cycleThroughA_oneExpression :
    ∃ q s', (transformMatchPattern [cycleThroughA] []).run personGraphState = .ok (q, s') ∧
      ∃ new, s'.entities = personGraphState.entities ++ new ∧ ∀ e₁ ∈ new, ∀ e₂ ∈ new, ∀ n,
        e₁.name = some n → e₂.name = some n → ¬IsDefaultAlias (some n) →
          ¬VertexRelationColumn n → e₁.expr = e₂.expr :=
  let ⟨q, s', h⟩ := cycleThroughA_compiles
  ⟨q, s', h, matchPatternVariables_oneExpression _ _ _ _ _ h⟩

end Pattern

end AgeCypher
