import AgeCypher.Registry
/-!
# The numbering of a clause query's target list

The executor reads the columns of a clause query by position. `makeTargetListFromRTE`
asserts that the visible entries of a subquery are numbered 1, 2, ..., and the plans of
`CREATE`, `SET` and `DELETE` record the positions of the columns they read and write.
Every clause query is compiled from a state whose counter is at 1 (the root state or a
child state), and every transform appends its entries with the counter's next values,
visible ones before junk ones (`AppendsEntries`).

* `Numbered`: entry `i` has number `n + i`, junk entries last, visible entries named;
* `transformCypherClause_numbered`: the target list of every clause query;
* `transformCypherClause_readsPrev`: a clause that reads its predecessor starts with
  the columns of `_`, and the positions its plan records address the columns built for
  them (`PlanAddressed`).
-/

namespace AgeCypher

/-- The target list of a query as the executor reads it: numbered on from `n`, the
junk entries after the visible ones, every visible entry named. -/
structure Numbered (n : Nat) (tl : List TargetEntry) : Prop where
  /-- Entry `i` (from 0) has number `n + i`. -/
  resnos : tl.map (·.resno) = List.range' n tl.length
  /-- No visible entry follows a junk one. -/
  junkLast : ∃ visible junk, tl = visible ++ junk ∧ (∀ te ∈ visible, te.resjunk = false) ∧
    ∀ te ∈ junk, te.resjunk = true
  /-- A visible entry has a name. -/
  named : ∀ te ∈ tl, te.resjunk = false → te.resname.isSome

/-- Position `pos` is the number of the first of the columns `cols` named `name`:
what `get_target_entry_resno` returns when a column carries the name. -/
def FirstColumn (cols : List TargetEntry) (name : String) (pos : Int) : Prop :=
  ∃ te, cols.find? (·.resname == some name) = some te ∧ (te.resno : Int) = pos

/-- The columns `pred` a clause reads from its predecessor `prev`: none without one,
else visible and named as the columns of `_`, the range-table entry of the
predecessor's query compiled in a child state. -/
def PrevColumns : Option (TransformM Query) → List TargetEntry → Prop
  | none, pred => pred = []
  | some m, pred => (∀ te ∈ pred, te.resjunk = false) ∧
      ∃ u qp c, m.run (makeCypherParsestate u) = .ok (qp, c) ∧
        pred.map (·.resname) = (subqueryRte qp).colnames.map some

/-- The positions a clause's plan records, in a target list made of the
predecessor's columns `pred` followed by the clause's own `own`, the last of
which holds the plan: the entity of an update or delete item is the first
predecessor column of its name, a `SET` value is a column of the clause's own,
and a `CREATE` path addresses the columns built for its elements. -/
def PlanAddressed (pred own : List TargetEntry) : CypherClause → Prop
  | .cypherCreate pattern => ∃ t, own.getLast?.map (·.expr) = some (.clauseFunction (.create t)) ∧
      List.Forall₂ (CreatePathAddressed (pred ++ own)) pattern t.paths
  | .cypherSet _ => ∃ u, own.getLast?.map (·.expr) = some (.clauseFunction (.update u)) ∧
      ∀ item ∈ u.setItems, FirstColumn pred item.varName item.entityPosition ∧
        (item.removeItem = false → ∃ te ∈ own, te.resno = item.propPosition ∧
          te.resjunk = false ∧ ∃ v, te.expr = .volatileWrapper v)
  | .cypherDelete _ => ∃ d, own.getLast?.map (·.expr) = some (.clauseFunction (.delete d)) ∧
      ∀ item ∈ d.deleteItems, FirstColumn pred item.varName item.entityPosition
  | _ => True

/-- The clauses whose query starts with the columns of the previous clause. -/
def CypherClause.readsPredecessor : CypherClause → Bool
  | .cypherMatch _ | .cypherCreate _ | .cypherSet _ | .cypherDelete _ => true
  | .cypherReturn _ | .cypherWith _ | .cypherSubPattern _ => false

/-- `pred` are the visible columns of the query of the predecessor chain
`prevClauses`, compiled in a child state, in order and under their names; none
when nothing precedes. -/
def PredecessorColumns : List CypherClause → List TargetEntry → Prop
  | [], pred => pred = []
  | c :: cs, pred => (∀ te ∈ pred, te.resjunk = false) ∧
      ∃ u qp r, (transformCypherClause false (c :: cs)).run (makeCypherParsestate u) = .ok (qp, r) ∧
        pred.map (·.resname) = (qp.targetList.filter (!·.resjunk)).map (·.resname)

/-! ## Shapes -/

section Shapes

variable {tl tl' : List TargetEntry} {n : Nat}

/-- An entry of a list with the shapes of `tl` has the shape of an entry of `tl`. -/
theorem exists_mem_of_map_shape (h : tl'.map TargetEntry.shape = tl.map TargetEntry.shape)
    {te : TargetEntry} (hte : te ∈ tl') : ∃ te₀ ∈ tl, te₀.resno = te.resno ∧
      te₀.resname = te.resname ∧ te₀.resjunk = te.resjunk := by
  have hmem : te.shape ∈ tl.map TargetEntry.shape := h ▸ List.mem_map_of_mem _ hte
  obtain ⟨te₀, hte₀, hsh⟩ := List.mem_map.1 hmem
  simp only [TargetEntry.shape, Prod.mk.injEq] at hsh
  exact ⟨te₀, hte₀, hsh⟩

theorem map_resname_of_shape (h : tl'.map TargetEntry.shape = tl.map TargetEntry.shape) :
    tl'.map (·.resname) = tl.map (·.resname) := by
  simpa [Function.comp_def, TargetEntry.shape] using congrArg (List.map fun sh => sh.2.1) h

/-- Numbering reads the shapes of the entries only. -/
theorem Numbered.of_shape (h : Numbered n tl) (hs : tl'.map TargetEntry.shape = tl.map TargetEntry.shape) :
    Numbered n tl' := by
  have hres : tl'.map (·.resno) = tl.map (·.resno) := by
    simpa [Function.comp_def, TargetEntry.shape] using congrArg (List.map fun sh => sh.1) hs
  obtain ⟨visible, junk, rfl, hv, hj⟩ := h.junkLast
  rw [List.map_append] at hs
  obtain ⟨visible', junk', rfl, hsv, hsj⟩ := List.map_eq_append_iff.1 hs
  refine ⟨by rw [hres, h.resnos, ← List.length_map _ TargetEntry.shape, List.map_append, ← hsv, ← hsj,
    ← List.map_append, List.length_map], ⟨visible', junk', rfl, fun te hte => ?_, fun te hte => ?_⟩,
    fun te hte hjunk => ?_⟩
  · obtain ⟨te₀, h₀, -, -, hjunk⟩ := exists_mem_of_map_shape hsv hte
    exact hjunk ▸ hv te₀ h₀
  · obtain ⟨te₀, h₀, -, -, hjunk⟩ := exists_mem_of_map_shape hsj hte
    exact hjunk ▸ hj te₀ h₀
  · have hs' : (visible' ++ junk').map TargetEntry.shape = (visible ++ junk).map TargetEntry.shape := by
      simp only [List.map_append, hsv, hsj]
    obtain ⟨te₀, h₀, -, hname, hjunk₀⟩ := exists_mem_of_map_shape hs' hte
    exact hname ▸ h.named te₀ h₀ (hjunk₀.trans hjunk)

end Shapes

/-! ## Appending entries -/

section Appends

variable {junk : Bool} {tl tl₁ : List TargetEntry} {s s₁ s' : CypherParseState}

/-- Visible entries appended to the empty list are visible and named. -/
theorem AppendsEntries.visible (h : AppendsEntries false [] s tl s') :
    ∀ te ∈ tl, te.resjunk = false ∧ te.resname.isSome := by
  obtain ⟨new, hs, -, hnew, -⟩ := h
  intro te hte
  have hs' : tl.map TargetEntry.shape = new.map TargetEntry.shape := by simpa using hs
  obtain ⟨te₀, h₀, -, hname, hjunk⟩ := exists_mem_of_map_shape hs' hte
  have hjunk₀ := (hnew te₀ h₀).1
  exact ⟨hjunk ▸ hjunk₀, hname ▸ (hnew te₀ h₀).2 hjunk₀⟩

/-- Visible entries appended to the empty list, then junk ones, are numbered on
from the counter. -/
theorem AppendsEntries.numbered (h₁ : AppendsEntries false [] s tl₁ s₁)
    (h₂ : AppendsEntries true tl₁ s₁ tl s') : Numbered s.pNextResno tl := by
  obtain ⟨new₁, hs₁, hr₁, hj₁, hc₁⟩ := h₁
  obtain ⟨new₂, hs₂, hr₂, hj₂, -⟩ := h₂
  refine (show Numbered s.pNextResno (new₁ ++ new₂) from ⟨?_, ⟨new₁, new₂, rfl,
    fun te hte => (hj₁ te hte).1, fun te hte => (hj₂ te hte).1⟩, ?_⟩).of_shape
    (by rw [hs₂, List.map_append, List.map_append, hs₁, List.nil_append])
  · rw [List.map_append, hr₁, hr₂, hc₁, List.length_append, List.range'_append_1, Nat.add_comm]
  · intro te hte hjunk
    rcases List.mem_append.1 hte with h | h
    · exact (hj₁ te h).2 hjunk
    · exact absurd ((hj₂ te h).1.symm.trans hjunk) Bool.noConfusion

theorem AppendsEntries.numbered_visible (h : AppendsEntries false [] s tl s') :
    Numbered s.pNextResno tl :=
  h.numbered (.of_resno rfl)

/-- The entries a list started with keep their shapes in front. -/
theorem AppendsEntries.take_shape (h : AppendsEntries junk tl₁ s tl s') :
    (tl.take tl₁.length).map TargetEntry.shape = tl₁.map TargetEntry.shape := by
  obtain ⟨new, hs, -⟩ := h
  rw [List.map_take, hs, List.map_append, List.take_left' (List.length_map _ _)]

theorem AppendsEntries.of_start (h : AppendsEntries junk tl₁ s₁ tl s')
    (hs : s₁.pNextResno = s.pNextResno) : AppendsEntries junk tl₁ s tl s' :=
  (AppendsEntries.of_resno hs).trans h

end Appends

/-! ## The columns of the predecessor -/

section Columns

variable {prev : Option (TransformM Query)} {pred pred' : List TargetEntry}

theorem PrevColumns.visible (h : PrevColumns prev pred) : ∀ te ∈ pred, te.resjunk = false := by
  cases prev with
  | none => cases (h : pred = []); exact fun _ h => (nomatch h)
  | some m => exact h.1

theorem PrevColumns.of_names (h : PrevColumns prev pred)
    (hnames : pred'.map (·.resname) = pred.map (·.resname)) (hv : ∀ te ∈ pred', te.resjunk = false) :
    PrevColumns prev pred' := by
  cases prev with
  | none => cases (h : pred = []); exact List.map_eq_nil_iff.1 hnames
  | some m =>
    obtain ⟨-, u, qp, c, hc, hn⟩ := h
    exact ⟨hv, u, qp, c, hc, hnames.trans hn⟩

theorem PrevColumns.of_shape (h : PrevColumns prev pred)
    (hs : pred'.map TargetEntry.shape = pred.map TargetEntry.shape) : PrevColumns prev pred' :=
  h.of_names (map_resname_of_shape hs) fun te hte => by
    obtain ⟨te₀, h₀, -, -, hjunk⟩ := exists_mem_of_map_shape hs hte
    exact hjunk ▸ h.visible te₀ h₀

/-- The columns of `_` are the names of the visible entries of the subquery, when
those have names. -/
theorem subqueryRte_colnames {qp : Query}
    (h : ∀ te ∈ qp.targetList, te.resjunk = false → te.resname.isSome) :
    (subqueryRte qp).colnames.map some = (qp.targetList.filter (!·.resjunk)).map (·.resname) := by
  simp only [subqueryRte, List.map_map]
  refine List.map_congr_left fun te hte => ?_
  have hname := h te (List.mem_filter.1 hte).1 (by simpa using (List.mem_filter.1 hte).2)
  obtain ⟨name, hn⟩ := Option.isSome_iff_exists.1 hname
  simp [hn]

/-- The entity of an item is the first column of its name, when
`get_target_entry_resno` found one. -/
theorem firstColumn_of_getTargetEntryResno {tl : List TargetEntry} {name : String} {pos : Int}
    (h : (getTargetEntryResno tl name).1 = pos) (hne : pos ≠ -1)
    (hs : pred.map TargetEntry.shape = tl.map TargetEntry.shape) : FirstColumn pred name pos := by
  rw [← getTargetEntryResno_fst_of_shape name hs, getTargetEntryResno_fst] at h
  cases hf : pred.find? (·.resname == some name) with
  | none => rw [hf] at h; exact absurd h.symm hne
  | some te => rw [hf] at h; exact ⟨te, hf, h⟩

end Columns

/-! ## Subqueries leave the counter alone -/

section Subqueries

variable {s s' : CypherParseState}

/-- A clause compiled as a subquery: its query comes from a run in a child state,
its range-table entry is `_` over that query, and the counter is untouched. -/
theorem transformCypherClauseAsSubquery_spec {m : TransformM Query} {i : Nat} {rte : RangeTblEntry}
    {qm : Query} (h : (transformCypherClauseAsSubquery m).run s = .ok ((i, rte, qm), s')) :
    (∃ u c, m.run (makeCypherParsestate u) = .ok (qm, c)) ∧ rte = subqueryRte qm ∧
      s'.pNextResno = s.pNextResno := by
  obtain ⟨c, hc, rfl, -, rfl⟩ := transformCypherClauseAsSubquery_ok h
  exact ⟨⟨_, c, hc⟩, rfl, rfl⟩

/-- The columns of the previous clause: visible, numbered on from the counter,
named as the columns of `_`. -/
theorem transformPrevCypherClause_spec {m : TransformM Query} {tl : List TargetEntry}
    (h : (transformPrevCypherClause m).run s = .ok (tl, s')) :
    AppendsEntries false [] s tl s' ∧ PrevColumns (some m) tl := by
  replace ⟨⟨i, rte, qm⟩, s₁, h₁, h⟩ := run_bind_ok h
  obtain ⟨⟨u, c, hc⟩, rfl, hs₁⟩ := transformCypherClauseAsSubquery_spec h₁
  obtain ⟨hstep, hnames⟩ := expandRelAttrs_step (p := fun _ => True) h
  have happ := hstep.appends.of_start hs₁
  refine ⟨happ, fun te hte => (happ.visible te hte).1, u, qm, c, hc, ?_⟩
  rw [hnames, show (fun x : String × Nat => some x.1) = some ∘ Prod.fst from rfl, ← List.map_map,
    List.map_fst_zip _ _ (by simp [subqueryRte])]

/-- The columns a `MATCH` or a `CREATE` starts with. -/
theorem prevColumns_spec {prev : Option (TransformM Query)} {tl : List TargetEntry}
    (h : (match prev with
      | some prev => transformPrevCypherClause prev
      | none => (pure [] : TransformM (List TargetEntry))).run s = .ok (tl, s')) :
    AppendsEntries false [] s tl s' ∧ PrevColumns prev tl := by
  cases prev with
  | none =>
    obtain ⟨rfl, rfl⟩ := run_pure_ok h
    exact ⟨.of_resno rfl, rfl⟩
  | some m => exact transformPrevCypherClause_spec h

end Subqueries

/-! ## One lemma per clause -/

section Clauses

variable {prev : Option (TransformM Query)} {terminal : Bool} {s s' : CypherParseState} {q : Query}

/-- An entry numbered by the counter, appended visible and named. -/
theorem AppendsEntries.push {tl : List TargetEntry} {e : Expr} {name : String} :
    AppendsEntries false tl s
      (tl ++ [{ expr := e, resno := s.pNextResno, resname := some name, resjunk := false }])
      { s with pNextResno := s.pNextResno + 1 } :=
  .single rfl rfl (fun _ => rfl) rfl

theorem transformCypherMatchPattern_spec {pattern : List CypherPath}
    (h : (transformCypherMatchPattern prev pattern).run s = .ok (q, s')) :
    AppendsEntries false [] s q.targetList s' ∧
      ∃ pred own, q.targetList = pred ++ own ∧ PrevColumns prev pred := by
  replace ⟨tl, s₁, h₁, h⟩ := run_bind_ok h
  obtain ⟨happ, hprev⟩ := prevColumns_spec h₁
  have hpattern := (transformMatchPattern_step h).appends
  exact ⟨happ.trans hpattern, q.targetList.take tl.length, q.targetList.drop tl.length,
    (List.take_append_drop _ _).symm, hprev.of_shape hpattern.take_shape⟩

/-- With a `WHERE`, the clause is the subquery `_` of the filtering query, whose
columns are those of `_`, numbered before the `WHERE` is compiled. -/
theorem transformCypherClauseWithWhere_spec {m : TransformM Query} {w : WhereExpr}
    (h : (transformCypherClauseWithWhere m (some w)).run s = .ok (q, s')) :
    (∃ t, AppendsEntries false [] s q.targetList t) ∧ PrevColumns (some m) q.targetList := by
  replace ⟨tl, s₁, h₁, h⟩ := run_bind_ok h
  obtain ⟨happ, hcols⟩ := transformPrevCypherClause_spec h₁
  obtain ⟨qual, s₂, -, h⟩ := run_bind_ok h
  replace ⟨st, s₃, h₃, h⟩ := run_bind_ok h
  obtain ⟨rfl, rfl⟩ := run_get_ok h₃
  obtain ⟨rfl, rfl⟩ := run_pure_ok h
  exact ⟨⟨s₁, happ⟩, hcols⟩

theorem transformCypherMatch_spec {self : CypherMatch}
    (h : (transformCypherMatch prev self).run s = .ok (q, s')) :
    (∃ t, AppendsEntries false [] s q.targetList t) ∧
      ∃ pred own, q.targetList = pred ++ own ∧ PrevColumns prev pred := by
  unfold transformCypherMatch at h
  cases hw : self.where with
  | none =>
    rw [hw] at h
    obtain ⟨happ, hcols⟩ := transformCypherMatchPattern_spec h
    exact ⟨⟨s', happ⟩, hcols⟩
  | some w =>
    rw [hw] at h
    obtain ⟨⟨t, happ⟩, -, u, qm, c, hc, hnames⟩ := transformCypherClauseWithWhere_spec h
    obtain ⟨happm, predm, ownm, hqm, hpred⟩ := transformCypherMatchPattern_spec hc
    -- the inner query's entries are all visible and named, so `_` carries their names
    have hcols : (subqueryRte qm).colnames.map some = predm.map (·.resname) ++ ownm.map (·.resname) := by
      rw [subqueryRte_colnames fun te hte _ => (happm.visible te hte).2,
        List.filter_eq_self.2 fun te hte => by simp [(happm.visible te hte).1], hqm, List.map_append]
    refine ⟨⟨t, happ⟩, q.targetList.take predm.length, q.targetList.drop predm.length,
      (List.take_append_drop _ _).symm,
      hpred.of_names ?_ fun te hte => (happ.visible te (List.mem_of_mem_take hte)).1⟩
    rw [List.map_take, hnames, hcols, List.take_left' (List.length_map _ _)]

theorem transformCypherReturn_spec {self : CypherReturn}
    (h : (transformCypherReturn prev self).run s = .ok (q, s')) :
    Numbered s.pNextResno q.targetList := by
  replace ⟨_, s₁, h₁, h⟩ := run_bind_ok h
  have hs₁ : s₁.pNextResno = s.pNextResno := by
    cases prev with
    | none => rw [(run_pure_ok h₁).2]
    | some m =>
      replace ⟨⟨i, rte, qm⟩, t, ht, h₁⟩ := run_bind_ok h₁
      rw [(run_pure_ok h₁).2]
      exact (transformCypherClauseAsSubquery_spec ht).2.2
  replace ⟨⟨tl₁, group⟩, s₂, h₂, h⟩ := run_bind_ok h
  have hitems := (transformCypherItemList_step (p := fun _ => True) h₂).appends
  replace ⟨⟨sortClause, tl₂⟩, s₃, h₃, h⟩ := run_bind_ok h
  have horder := (transformCypherOrderBy_step (p := fun _ => True) h₃).appends
  replace ⟨⟨groupClause, tl₃⟩, s₄, h₄, h⟩ := run_bind_ok h
  have hgroup := (transformGroupClause_step (p := fun _ => True) h₄).appends
  replace ⟨⟨distinctClause, tl₄⟩, s₅, h₅, h⟩ := run_bind_ok h
  have hdistinct : tl₄.map TargetEntry.shape = tl₃.map TargetEntry.shape ∧ s₅ = s₄ := by
    split at h₅
    · exact transformDistinctClause_spec h₅
    · obtain ⟨⟨⟩, rfl⟩ := run_pure_ok h₅
      exact ⟨rfl, rfl⟩
  obtain ⟨hshape, rfl⟩ := hdistinct
  replace ⟨_, s₆, h₆, h⟩ := run_bind_ok h
  cases transformCypherLimit_readOnly _ _ _ _ _ h₆
  replace ⟨_, s₇, h₇, h⟩ := run_bind_ok h
  cases transformCypherLimit_readOnly _ _ _ _ _ h₇
  replace ⟨st, s₈, h₈, h⟩ := run_bind_ok h
  obtain ⟨rfl, rfl⟩ := run_get_ok h₈
  replace ⟨_, s₉, h₉, h⟩ := run_bind_ok h
  cases parseCheckAggregates_readOnly _ _ _ _ h₉
  obtain ⟨rfl, rfl⟩ := run_pure_ok h
  rw [← hs₁]
  exact hitems.numbered (horder.trans (hgroup.trans (.of_shape hshape rfl)))

theorem transformCypherWith_spec {self : CypherWith}
    (h : (transformCypherWith prev self).run s = .ok (q, s')) :
    Numbered s.pNextResno q.targetList := by
  unfold transformCypherWith at h
  cases hw : self.where with
  | none =>
    rw [hw] at h
    exact transformCypherReturn_spec h
  | some w =>
    rw [hw] at h
    obtain ⟨⟨t, happ⟩, -⟩ := transformCypherClauseWithWhere_spec h
    exact happ.numbered_visible

theorem transformCypherSubPattern_spec {pattern : List CypherPath}
    (h : (transformCypherSubPattern pattern).run s = .ok (q, s')) :
    Numbered s.pNextResno q.targetList := by
  replace ⟨⟨i, rte, qm⟩, s₁, h₁, h⟩ := run_bind_ok h
  have hs₁ := (transformCypherClauseAsSubquery_spec h₁).2.2
  replace ⟨tl, s₂, h₂, h⟩ := run_bind_ok h
  have happ := (expandRelAttrs_step (p := fun _ => True) h₂).1.appends
  replace ⟨st, s₃, h₃, h⟩ := run_bind_ok h
  obtain ⟨rfl, rfl⟩ := run_get_ok h₃
  obtain ⟨rfl, rfl⟩ := run_pure_ok h
  exact (happ.of_start hs₁).numbered_visible

/-- A `CREATE` query: the predecessor's columns, the null column, the pattern's
columns and the plan's, which addresses the pattern's columns. -/
theorem transformCypherCreate_spec {pattern : List CypherPath}
    (h : (transformCypherCreate prev terminal pattern).run s = .ok (q, s')) :
    AppendsEntries false [] s q.targetList s' ∧ ∃ pred own, q.targetList = pred ++ own ∧
      PrevColumns prev pred ∧ PlanAddressed pred own (.cypherCreate pattern) := by
  replace ⟨tl₀, s₁, h₁, h⟩ := run_bind_ok h
  obtain ⟨happ₀, hprev⟩ := prevColumns_spec h₁
  replace ⟨resno, s₂, h₂, h⟩ := run_bind_ok h
  rw [nextResno_run] at h₂
  obtain ⟨rfl, rfl⟩ := Prod.mk.inj (Except.ok.inj h₂)
  replace ⟨⟨paths, tl₁⟩, s₃, h₃, h⟩ := run_bind_ok h
  obtain ⟨hstep, haddr⟩ := transformCypherCreatePattern_step h₃
  replace ⟨resno', s₄, h₄, h⟩ := run_bind_ok h
  rw [nextResno_run] at h₄
  obtain ⟨rfl, rfl⟩ := Prod.mk.inj (Except.ok.inj h₄)
  replace ⟨st, s₅, h₅, h⟩ := run_bind_ok h
  obtain ⟨rfl, rfl⟩ := run_get_ok h₅
  obtain ⟨rfl, rfl⟩ := run_pure_ok h
  have hbody := AppendsEntries.push.trans hstep.appends
  refine ⟨happ₀.trans (hbody.trans .push), tl₁.take tl₀.length, tl₁.drop tl₀.length ++ _,
    by rw [← List.append_assoc, List.take_append_drop], hprev.of_shape hbody.take_shape,
    ⟨paths, { previousClause := prev.isSome, terminal }⟩, by simp, ?_⟩
  rw [← List.append_assoc, List.take_append_drop]
  exact haddr.imp fun _ _ h => h.of_appends .push

/-- A `SET` or `REMOVE` query: the predecessor's columns, the value column of a
`SET` item, and the plan's. -/
theorem transformCypherSet_spec {self : CypherSet}
    (h : (transformCypherSet prev terminal self).run s = .ok (q, s')) :
    AppendsEntries false [] s q.targetList s' ∧ ∃ pred own, q.targetList = pred ++ own ∧
      PrevColumns prev pred ∧ PlanAddressed pred own (.cypherSet self) := by
  unfold transformCypherSet at h
  cases prev with
  | none => simp at h
  | some m =>
    replace ⟨tl₀, s₁, h₁, h⟩ := run_bind_ok h
    obtain ⟨happ₀, hprev⟩ := transformPrevCypherClause_spec h₁
    split at h
    · simp at h
    rename_i hlen
    replace ⟨⟨items, tl₁⟩, s₂, h₂, h⟩ := run_bind_ok h
    replace ⟨resno, s₃, h₃, h⟩ := run_bind_ok h
    rw [nextResno_run] at h₃
    obtain ⟨rfl, rfl⟩ := Prod.mk.inj (Except.ok.inj h₃)
    replace ⟨st, s₄, h₄, h⟩ := run_bind_ok h
    obtain ⟨rfl, rfl⟩ := run_get_ok h₄
    obtain ⟨rfl, rfl⟩ := run_pure_ok h
    cases hr : self.isRemove with
    | false =>
      -- `SET`: one item, whose value column follows the predecessor's
      obtain ⟨item, hitem⟩ := List.length_eq_one.1 (by simpa using hlen)
      simp only [hr, hitem, Bool.false_eq_true, ↓reduceIte] at h₂
      replace ⟨⟨u, tl'⟩, t₁, ht₁, h₂⟩ := run_bind_ok h₂
      replace ⟨⟨us, tl''⟩, t₂, ht₂, h₂⟩ := run_bind_ok h₂
      obtain ⟨⟨⟩, rfl⟩ := run_pure_ok ht₂
      obtain ⟨⟨⟩, rfl⟩ := run_pure_ok h₂
      obtain ⟨hpos, hne, hrem, hprop, te, hno, hjunk, hname, hwrap, rfl, rfl⟩ :=
        transformCypherSetItem_spec ht₁
      have hshape := getTargetEntryResno_shape tl₀ u.varName
      refine ⟨happ₀.trans ((AppendsEntries.of_shape hshape rfl).trans
          ((AppendsEntries.single hno hjunk (fun _ => hname) rfl).trans .push)),
        _, [te, _], List.append_assoc _ _ _, hprev.of_shape hshape, _, rfl, ?_⟩
      rintro v (_ | ⟨_, ⟨⟩⟩)
      exact ⟨firstColumn_of_getTargetEntryResno hpos.symm hne hshape,
        fun _ => ⟨te, by simp, hno.trans hprop.symm, hjunk, hwrap⟩⟩
    | true =>
      -- `REMOVE`: the entries keep their shapes
      simp only [hr, ↓reduceIte] at h₂
      obtain ⟨hshape, rfl, hitems⟩ := transformCypherRemoveItemList_spec h₂
      refine ⟨happ₀.trans ((AppendsEntries.of_shape hshape rfl).trans .push), tl₁, [_], rfl,
        hprev.of_shape hshape, _, rfl, fun v hv => ?_⟩
      obtain ⟨hpos, hne, hrem⟩ := hitems v hv
      exact ⟨firstColumn_of_getTargetEntryResno hpos.symm hne hshape,
        fun h => absurd (hrem.symm.trans h) Bool.noConfusion⟩

/-- A `DELETE` query: the predecessor's columns and the plan's. -/
theorem transformCypherDelete_spec {self : CypherDelete}
    (h : (transformCypherDelete prev terminal self).run s = .ok (q, s')) :
    AppendsEntries false [] s q.targetList s' ∧ ∃ pred own, q.targetList = pred ++ own ∧
      PrevColumns prev pred ∧ PlanAddressed pred own (.cypherDelete self) := by
  unfold transformCypherDelete at h
  cases prev with
  | none => simp at h
  | some m =>
    replace ⟨tl₀, s₁, h₁, h⟩ := run_bind_ok h
    obtain ⟨happ₀, hprev⟩ := transformPrevCypherClause_spec h₁
    replace ⟨⟨items, tl₁⟩, s₂, h₂, h⟩ := run_bind_ok h
    obtain ⟨hshape, rfl, hitems⟩ := transformCypherDeleteItemList_spec h₂
    replace ⟨resno, s₃, h₃, h⟩ := run_bind_ok h
    rw [nextResno_run] at h₃
    obtain ⟨rfl, rfl⟩ := Prod.mk.inj (Except.ok.inj h₃)
    replace ⟨st, s₄, h₄, h⟩ := run_bind_ok h
    obtain ⟨rfl, rfl⟩ := run_get_ok h₄
    obtain ⟨rfl, rfl⟩ := run_pure_ok h
    refine ⟨happ₀.trans ((AppendsEntries.of_shape hshape rfl).trans .push), tl₁, [_], rfl,
      hprev.of_shape hshape, _, rfl, fun v hv => ?_⟩
    obtain ⟨hpos, hne⟩ := hitems v hv
    exact firstColumn_of_getTargetEntryResno hpos.symm hne hshape

end Clauses

/-! ## The clause chain -/

section Chain

variable {terminal : Bool} {s s' : CypherParseState} {q : Query}

/-- The target list of every clause query is numbered on from the counter of the
state it is compiled in, its junk entries last. -/
theorem transformCypherClause_numbered {clauses : List CypherClause}
    (h : (transformCypherClause terminal clauses).run s = .ok (q, s')) :
    Numbered s.pNextResno q.targetList := by
  cases clauses with
  | nil => simp [transformCypherClause] at h
  | cons clause prevClauses =>
    cases clause with
    | cypherReturn self => exact transformCypherReturn_spec h
    | cypherWith self => exact transformCypherWith_spec h
    | cypherMatch self =>
      obtain ⟨⟨t, happ⟩, -⟩ := transformCypherMatch_spec h
      exact happ.numbered_visible
    | cypherCreate pattern => exact (transformCypherCreate_spec h).1.numbered_visible
    | cypherSet self => exact (transformCypherSet_spec h).1.numbered_visible
    | cypherDelete self => exact (transformCypherDelete_spec h).1.numbered_visible
    | cypherSubPattern pattern => exact transformCypherSubPattern_spec h

/-- A clause that reads its predecessor starts with the columns of `_`, and its
plan addresses the columns built for it. -/
theorem transformCypherClause_readsPrev {clause : CypherClause} {prevClauses : List CypherClause}
    (hr : clause.readsPredecessor = true)
    (h : (transformCypherClause terminal (clause :: prevClauses)).run s = .ok (q, s')) :
    ∃ pred own, q.targetList = pred ++ own ∧
      PrevColumns (if prevClauses.isEmpty then none else some (transformCypherClause false prevClauses))
        pred ∧ PlanAddressed pred own clause := by
  cases clause with
  | cypherMatch self =>
    obtain ⟨-, pred, own, hq, hprev⟩ := transformCypherMatch_spec h
    exact ⟨pred, own, hq, hprev, trivial⟩
  | cypherCreate pattern => exact (transformCypherCreate_spec h).2
  | cypherSet self => exact (transformCypherSet_spec h).2
  | cypherDelete self => exact (transformCypherDelete_spec h).2
  | cypherReturn _ | cypherWith _ | cypherSubPattern _ => cases hr

/-- The columns of `_` carry the names of the predecessor's visible entries: the
predecessor's query is itself numbered, so its visible entries are named. -/
theorem PrevColumns.predecessorColumns {prevClauses : List CypherClause} {pred : List TargetEntry}
    (h : PrevColumns (if prevClauses.isEmpty then none
      else some (transformCypherClause false prevClauses)) pred) :
    PredecessorColumns prevClauses pred := by
  cases prevClauses with
  | nil => exact h
  | cons c cs =>
    obtain ⟨hv, u, qp, r, hrun, hnames⟩ := h
    exact ⟨hv, u, qp, r, hrun,
      hnames.trans (subqueryRte_colnames (transformCypherClause_numbered hrun).named)⟩

end Chain

end AgeCypher
