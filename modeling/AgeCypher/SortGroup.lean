import AgeCypher.ProjectionSteps
/-!
# Sort references across `ORDER BY`, `GROUP BY` and `DISTINCT`

An expression resolves to the first entry whose key (its expression, implicit
coercions stripped) it is, or to a hidden entry appended for it. Sort and group
clauses give entries references, and the lists they leave keep three facts
(`SortGroupInv`): a nonzero reference names one entry, an entry with a reference
has a known type, and no sort clause refers past the largest reference.

* `SortGroupInv.step`, `SortGroupInv.append_zero`: a clause made for an entry,
  or a hidden entry, keeps them;
* `transformCypherOrderBy_inv`: so does `ORDER BY`, from any list that has them;
* `sortGroupSteps_getElem?_of_known`: later clauses leave an entry that has a
  reference and a known type as it is.
-/

namespace AgeCypher

/-- The position an expression resolves to: that of the first entry whose key it is. -/
def resolvePosition (tl : List TargetEntry) (e : Expr) : Option Nat :=
  (tl.map TargetEntry.key).findIdx? (· == e)

/-- A nonzero reference identifies its entry. -/
def RefsDistinct (tl : List TargetEntry) : Prop :=
  ∀ (i j : Nat) (te te' : TargetEntry), tl[i]? = some te → tl[j]? = some te' →
    te.ressortgroupref ≠ 0 → te.ressortgroupref = te'.ressortgroupref → i = j

/-- What sort and group clauses keep of a target list and the sort clauses made
for it. -/
structure SortGroupInv (sortClause : List SortGroupClause) (tl : List TargetEntry) : Prop where
  /-- A nonzero reference identifies its entry. -/
  distinct : RefsDistinct tl
  /-- An entry with a reference was coerced from `UNKNOWN`. -/
  known : ∀ te ∈ tl, te.ressortgroupref ≠ 0 → te.expr.type ≠ unknownOid
  /-- No sort clause refers past the largest reference. -/
  sortRefs : ∀ sc ∈ sortClause, sc.tleSortGroupRef ≤ maxSortGroupRef tl

/-! ## Positions and keys -/

section Keys

variable {tl tl' : List TargetEntry} {i : Nat} {te te' : TargetEntry} {e : Expr}

theorem resolvePosition_eq (tl : List TargetEntry) (e : Expr) :
    resolvePosition tl e = tl.findIdx? fun te => te.expr.stripImplicitCoercions == e :=
  List.findIdx?_map _ _

/-- Entries appended after a resolved position do not move it. -/
theorem resolvePosition_of_keys_append {extra : List Expr}
    (h : tl'.map TargetEntry.key = tl.map TargetEntry.key ++ extra)
    (hi : resolvePosition tl e = some i) : resolvePosition tl' e = some i := by
  rw [resolvePosition, h, List.findIdx?_append]
  rw [resolvePosition] at hi
  rw [hi]
  rfl

theorem resolvePosition_append_new (hnone : resolvePosition tl e = none) (hkey : te.key = e) :
    resolvePosition (tl ++ [te]) e = some tl.length := by
  rw [resolvePosition] at hnone
  simp [resolvePosition, hnone, hkey]

theorem map_key_set (hte : tl[i]? = some te) (hkey : te'.key = te.key) :
    (tl.set i te').map TargetEntry.key = tl.map TargetEntry.key := by
  rw [List.map_set, hkey, set_self_of_getElem? (by simp [hte])]

/-- Positions depend on the keys only. -/
theorem resolvePosition_congr (h : tl'.map TargetEntry.key = tl.map TargetEntry.key) :
    resolvePosition tl' = resolvePosition tl := by
  funext e
  rw [resolvePosition, h, resolvePosition]

end Keys

/-! ## References -/

section Refs

variable {sortClause : List SortGroupClause} {tl tl' : List TargetEntry} {i j : Nat}
  {te te' : TargetEntry}

theorem le_maxSortGroupRef (hte : te ∈ tl) : te.ressortgroupref ≤ maxSortGroupRef tl := by
  induction tl with
  | nil => cases hte
  | cons x tl ih =>
    rcases List.mem_cons.1 hte with rfl | h
    · exact Nat.le_max_left _ _
    · exact Nat.le_trans (ih h) (Nat.le_max_right _ _)

theorem maxSortGroupRef_le {m : Nat} (h : ∀ te ∈ tl, te.ressortgroupref ≤ m) :
    maxSortGroupRef tl ≤ m := by
  induction tl with
  | nil => exact Nat.zero_le _
  | cons x tl ih =>
    exact Nat.max_le.2 ⟨h x (List.mem_cons_self _ _), ih fun te hte => h te (List.mem_cons_of_mem _ hte)⟩

/-- The largest reference only grows when every entry is matched by one with a
larger reference. -/
theorem maxSortGroupRef_mono (h : ∀ te ∈ tl, ∃ te' ∈ tl', te.ressortgroupref ≤ te'.ressortgroupref) :
    maxSortGroupRef tl ≤ maxSortGroupRef tl' :=
  maxSortGroupRef_le fun te hte => by
    obtain ⟨te', hte', hle⟩ := h te hte
    exact Nat.le_trans hle (le_maxSortGroupRef hte')

theorem RefsDistinct.append_zero (h : RefsDistinct tl) (hzero : te.ressortgroupref = 0) :
    RefsDistinct (tl ++ [te]) := by
  unfold RefsDistinct at h ⊢
  intro a b x y hx hy hxr hr
  -- the new entry has no reference, so both entries are old ones
  have hold : ∀ {c : Nat} {z : TargetEntry}, (tl ++ [te])[c]? = some z → z.ressortgroupref ≠ 0 → tl[c]? = some z := by
    intro c z hz hnz
    rcases Nat.lt_or_ge c tl.length with hc | hc
    · rwa [List.getElem?_append_left hc] at hz
    · rw [List.getElem?_append_right hc] at hz
      cases hcz : c - tl.length with
      | zero => simp [hcz] at hz; subst hz; exact absurd hzero hnz
      | succ n => simp [hcz] at hz
  exact h a b x y (hold hx hxr) (hold hy (hr ▸ hxr)) hxr hr

/-- Setting an entry with the same reference keeps references distinct. -/
theorem RefsDistinct.set_same (h : RefsDistinct tl) (hte : tl[i]? = some te)
    (href : te'.ressortgroupref = te.ressortgroupref) : RefsDistinct (tl.set i te') := by
  have hback : ∀ {c : Nat} {z : TargetEntry}, (tl.set i te')[c]? = some z →
      ∃ z₀, tl[c]? = some z₀ ∧ z₀.ressortgroupref = z.ressortgroupref := by
    intro c z hz
    by_cases hci : i = c
    · subst hci
      rw [List.getElem?_set_self (List.getElem?_eq_some_iff.1 hte).1] at hz
      cases hz
      exact ⟨te, hte, href.symm⟩
    · rw [List.getElem?_set_ne hci] at hz
      exact ⟨z, hz, rfl⟩
  unfold RefsDistinct at h ⊢
  intro a b x y hx hy hxr hr
  obtain ⟨x₀, hx₀, hxe⟩ := hback hx
  obtain ⟨y₀, hy₀, hye⟩ := hback hy
  exact h a b x₀ y₀ hx₀ hy₀ (hxe ▸ hxr) (by rw [hxe, hye, hr])

/-- Setting an entry with a reference past every other keeps references distinct. -/
theorem RefsDistinct.set_fresh (h : RefsDistinct tl) (hi : i < tl.length)
    (hfresh : maxSortGroupRef tl < te'.ressortgroupref) : RefsDistinct (tl.set i te') := by
  have hold : ∀ {c : Nat} {z : TargetEntry}, c ≠ i → (tl.set i te')[c]? = some z → tl[c]? = some z ∧
      z.ressortgroupref < te'.ressortgroupref := by
    intro c z hc hz
    rw [List.getElem?_set_ne (Ne.symm hc)] at hz
    exact ⟨hz, Nat.lt_of_le_of_lt (le_maxSortGroupRef (List.mem_iff_getElem?.2 ⟨c, hz⟩)) hfresh⟩
  have hnew : ∀ {z : TargetEntry}, (tl.set i te')[i]? = some z → z = te' := by
    intro z hz
    rw [List.getElem?_set_self hi] at hz
    exact (Option.some.inj hz).symm
  unfold RefsDistinct at h ⊢
  intro a b x y hx hy hxr hr
  by_cases ha : a = i <;> by_cases hb : b = i
  · rw [ha, hb]
  · subst ha
    obtain ⟨-, hlt⟩ := hold hb hy
    rw [hnew hx] at hr
    omega
  · subst hb
    obtain ⟨-, hlt⟩ := hold ha hx
    rw [hnew hy] at hr
    omega
  · exact h a b x y (hold ha hx).1 (hold hb hy).1 hxr hr

theorem SortGroupStep.map_key (h : SortGroupStep tl tl') :
    tl'.map TargetEntry.key = tl.map TargetEntry.key := by
  obtain ⟨i, te, hte, rfl⟩ := h
  exact map_key_set hte TargetEntry.sortGroupEntry_key

/-- An entry with a reference and a known type is left where it is. -/
theorem SortGroupStep.getElem?_of_known (h : SortGroupStep tl tl') (hj : tl[j]? = some te)
    (href : te.ressortgroupref ≠ 0) (htype : te.expr.type ≠ unknownOid) : tl'[j]? = some te := by
  obtain ⟨i, te₀, hte₀, rfl⟩ := h
  by_cases hij : i = j
  · subst hij
    obtain rfl : te₀ = te := Option.some.inj (hte₀.symm.trans hj)
    rw [List.getElem?_set_self (List.getElem?_eq_some_iff.1 hj).1,
      TargetEntry.sortGroupEntry_of_known href htype]
  · rw [List.getElem?_set_ne hij, hj]

theorem SortGroupStep.maxSortGroupRef_le (h : SortGroupStep tl tl') :
    maxSortGroupRef tl ≤ maxSortGroupRef tl' := by
  obtain ⟨i, te, hte, rfl⟩ := h
  refine maxSortGroupRef_mono fun x hx => ?_
  obtain ⟨j, hj⟩ := List.mem_iff_getElem?.1 hx
  by_cases hij : i = j
  · subst hij
    obtain rfl : te = x := Option.some.inj (hte.symm.trans hj)
    refine ⟨_, List.mem_set _ _ (List.getElem?_eq_some_iff.1 hte).1 _, ?_⟩
    rw [TargetEntry.sortGroupEntry_ref]
    split <;> omega
  · exact ⟨x, List.mem_iff_getElem?.2 ⟨j, by rw [List.getElem?_set_ne hij, hj]⟩, Nat.le_refl _⟩

theorem SortGroupInv.step (hinv : SortGroupInv sortClause tl) (h : SortGroupStep tl tl') :
    SortGroupInv sortClause tl' := by
  have hmax := h.maxSortGroupRef_le
  obtain ⟨i, te, hte, rfl⟩ := h
  refine ⟨?_, fun x hx hne => ?_, fun sc hsc => Nat.le_trans (hinv.sortRefs sc hsc) hmax⟩
  · by_cases hz : te.ressortgroupref = 0
    · exact hinv.distinct.set_fresh (List.getElem?_eq_some_iff.1 hte).1 (by simp [hz])
    · exact hinv.distinct.set_same hte (by simp [hz])
  · rcases List.mem_or_eq_of_mem_set hx with hx | rfl
    · exact hinv.known x hx hne
    · exact TargetEntry.sortGroupEntry_type_ne

/-- A hidden entry with no reference keeps the invariant. -/
theorem SortGroupInv.append_zero (hinv : SortGroupInv sortClause tl)
    (hzero : te.ressortgroupref = 0) : SortGroupInv sortClause (tl ++ [te]) := by
  have hmax : maxSortGroupRef tl ≤ maxSortGroupRef (tl ++ [te]) :=
    maxSortGroupRef_mono fun x hx => ⟨x, List.mem_append_left _ hx, Nat.le_refl _⟩
  refine ⟨hinv.distinct.append_zero hzero, fun x hx hne => ?_,
    fun sc hsc => Nat.le_trans (hinv.sortRefs sc hsc) hmax⟩
  rcases List.mem_append.1 hx with hx | hx
  · exact hinv.known x hx hne
  · rw [List.mem_singleton.1 hx] at hne
    exact absurd hzero hne

/-- A sort clause that refers to an entry keeps the invariant. -/
theorem SortGroupInv.append_sort {c : SortGroupClause} (hinv : SortGroupInv sortClause tl)
    (hc : ∃ te ∈ tl, c.tleSortGroupRef = te.ressortgroupref) :
    SortGroupInv (sortClause ++ [c]) tl := by
  refine ⟨hinv.distinct, hinv.known, fun sc hsc => ?_⟩
  rcases List.mem_append.1 hsc with hsc | hsc
  · exact hinv.sortRefs sc hsc
  · obtain ⟨te, hte, hc⟩ := hc
    rw [List.mem_singleton.1 hsc, hc]
    exact le_maxSortGroupRef hte

theorem sortGroupSteps_map_key (h : Relation.ReflTransGen SortGroupStep tl tl') :
    tl'.map TargetEntry.key = tl.map TargetEntry.key := by
  induction h with
  | refl => rfl
  | tail _ hstep ih => exact hstep.map_key.trans ih

theorem sortGroupSteps_getElem?_of_known (h : Relation.ReflTransGen SortGroupStep tl tl')
    (hj : tl[j]? = some te) (href : te.ressortgroupref ≠ 0) (htype : te.expr.type ≠ unknownOid) :
    tl'[j]? = some te := by
  induction h with
  | refl => exact hj
  | tail _ hstep ih => exact hstep.getElem?_of_known ih href htype

end Refs

/-! ## Compiled expressions

An expression compiles to a column of the namespace or to an expression over such
columns: never to an implicit coercion, so it is its own key, and the same in
every state with the same namespaces. -/

section Expressions

/-- `m` reads the namespaces and nothing else. -/
def NamespaceReader {α : Type} (m : TransformM α) : Prop :=
  ∀ s t a t', t.pNamespace = s.pNamespace → t.parentNamespaces = s.parentNamespaces →
    m.run t = .ok (a, t') → t' = t ∧ m.run s = .ok (a, s)

namespace NamespaceReader

variable {α β : Type}

theorem bind {m : TransformM α} {f : α → TransformM β} (hm : NamespaceReader m)
    (hf : ∀ a, NamespaceReader (f a)) : NamespaceReader (m >>= f) := by
  intro s t b t' hns hpar h
  obtain ⟨a, t₁, h₁, h₂⟩ := run_bind_ok h
  obtain ⟨ht₁, hs₁⟩ := hm s t a t₁ hns hpar h₁
  rw [ht₁] at h₂
  obtain ⟨ht', hs₂⟩ := hf a s t b t' hns hpar h₂
  exact ⟨ht', by rw [run_bind, hs₁]; exact hs₂⟩

theorem pure {a : α} : NamespaceReader (Pure.pure a : TransformM α) := by
  intro s t b t' _ _ h
  obtain ⟨rfl, rfl⟩ := run_pure_ok h
  exact ⟨rfl, rfl⟩

theorem ereport {code : SqlState} {message : String} :
    NamespaceReader (AgeCypher.ereport code message : TransformM α) := by
  intro s t b t' _ _ h
  cases h

theorem mapM {γ : Type} {f : γ → TransformM α} (hf : ∀ x, NamespaceReader (f x)) :
    ∀ xs : List γ, NamespaceReader (xs.mapM f)
  | [] => by rw [List.mapM_nil]; exact pure
  | x :: xs => by
    rw [List.mapM_cons]
    exact (hf x).bind fun _ => (mapM hf xs).bind fun _ => pure

end NamespaceReader

theorem colNameToVar_namespaceReader (name : String) : NamespaceReader (colNameToVar name) := by
  intro s t a t' hns hpar h
  rw [colNameToVar_run, hns, hpar] at h
  rw [colNameToVar_run]
  cases hc : colNameToVarLevels name 0 (s.pNamespace :: s.parentNamespaces) with
  | error e => rw [hc] at h; cases h
  | ok v => rw [hc] at h; cases h; exact ⟨rfl, rfl⟩

theorem transformCypherExpr_namespaceReader :
    (node : CypherExpr) → NamespaceReader (transformCypherExpr node)
  | .columnRef name => (colNameToVar_namespaceReader name).bind fun v => by
      cases v <;> first | exact .pure | exact .ereport
  | .value _ => (NamespaceReader.mapM (fun name => (colNameToVar_namespaceReader name).bind
      fun v => by cases v <;> first | exact .pure | exact .ereport) _).bind fun _ => .pure

/-- What `colNameToVar` finds is a column `Var`, its own key. -/
theorem colNameToVarLevels_key {colname : String} {v : Expr} :
    ∀ {levelsUp : Nat} {nss : List (List NamespaceItem)},
      colNameToVarLevels colname levelsUp nss = .ok (some v) → v.stripImplicitCoercions = v
  | _, [], h => by cases h
  | levelsUp, ns :: outer, h => by
    rcases colNameToVarLevels_cons_some h with h | ⟨-, h⟩
    · obtain ⟨item, -, -, hs⟩ := colNameToVarLevel_some h
      rcases scanRTEForColumn_some hs with ⟨_, _, -, rfl⟩ | ⟨-, _, _, _, -, -, rfl⟩ <;> rfl
    · exact colNameToVarLevels_key h

/-- A compiled expression is its own key. -/
theorem transformCypherExpr_key {node : CypherExpr} {s s' : CypherParseState} {e : Expr}
    (h : (transformCypherExpr node).run s = .ok (e, s')) : e.stripImplicitCoercions = e := by
  cases node with
  | value v =>
    replace ⟨args, s₁, h₁, h⟩ := run_bind_ok h
    obtain ⟨rfl, -⟩ := run_pure_ok h
    rfl
  | columnRef name =>
    replace ⟨r, s₁, h₁, h⟩ := run_bind_ok h
    rw [colNameToVar_run] at h₁
    cases hc : colNameToVarLevels name 0 (s.pNamespace :: s.parentNamespaces) with
    | error err => rw [hc] at h₁; cases h₁
    | ok r' =>
      rw [hc] at h₁
      have hr : r = r' := by cases h₁; rfl
      subst hr
      rcases r with _ | w
      · cases h
      · obtain ⟨rfl, -⟩ := run_pure_ok h
        exact colNameToVarLevels_key hc

end Expressions

/-! ## `ORDER BY` -/

section OrderBy

variable {s s' : CypherParseState} {tl tl' : List TargetEntry} {i : Nat}

/-- The entry of an item has no reference. -/
theorem transformCypherItem_ref {node : CypherExpr} {expr : Option Expr}
    {colname : Option String} {resjunk : Bool} {te : TargetEntry}
    (h : (transformCypherItem node expr colname resjunk).run s = .ok (te, s')) :
    te.ressortgroupref = 0 := by
  replace ⟨e', s₁, h₁, h⟩ := run_bind_ok h
  replace ⟨resno, s₂, h₂, h⟩ := run_bind_ok h
  obtain ⟨rfl, rfl⟩ := run_pure_ok h
  rfl

theorem transformCypherItem_expr {node : CypherExpr} {e : Expr} {colname : Option String}
    {resjunk : Bool} {te : TargetEntry}
    (h : (transformCypherItem node (some e) colname resjunk).run s = .ok (te, s')) :
    te.expr = e := by
  replace ⟨e', s₁, h₁, h⟩ := run_bind_ok h
  obtain ⟨rfl, rfl⟩ := run_pure_ok h₁
  replace ⟨resno, s₂, h₂, h⟩ := run_bind_ok h
  obtain ⟨rfl, rfl⟩ := run_pure_ok h
  rfl

/-- A key resolves to an entry of the list, or to a hidden entry appended for it,
which has no reference. -/
theorem findTargetListEntry_spec {g : CypherExpr}
    (h : (findTargetListEntry g tl).run s = .ok ((i, tl'), s')) :
    ∃ e, (transformCypherExpr g).run s = .ok (e, s) ∧ resolvePosition tl' e = some i ∧
      (tl' = tl ∨ ∃ te, tl' = tl ++ [te] ∧ te.ressortgroupref = 0 ∧ te.key = e) ∧
      resnoOnly.rel s s' := by
  replace ⟨e, s₁, h₁, h⟩ := run_bind_ok h
  cases transformCypherExpr_readOnly _ _ _ _ h₁
  split at h
  · rename_i j hj
    obtain ⟨⟨⟩, rfl⟩ := run_pure_ok h
    exact ⟨e, h₁, (resolvePosition_eq tl e).trans hj, .inl rfl, rfl⟩
  · rename_i hnone
    replace ⟨te, s₂, h₂, h⟩ := run_bind_ok h
    obtain ⟨⟨⟩, rfl⟩ := run_pure_ok h
    have hexpr := transformCypherItem_expr h₂
    have href := transformCypherItem_ref h₂
    obtain ⟨-, -, -, rfl⟩ := transformCypherItem_spec h₂
    have hkey : te.key = e := by rw [TargetEntry.key, hexpr, transformCypherExpr_key h₁]
    exact ⟨e, h₁, resolvePosition_append_new ((resolvePosition_eq tl e).trans hnone) hkey,
      .inr ⟨te, rfl, href, hkey⟩, rfl⟩

/-- Resolving a key keeps the invariant. -/
theorem SortGroupInv.of_find {sortClause : List SortGroupClause} {e : Expr}
    (hinv : SortGroupInv sortClause tl)
    (h : tl' = tl ∨ ∃ te, tl' = tl ++ [te] ∧ te.ressortgroupref = 0 ∧ te.key = e) :
    SortGroupInv sortClause tl' := by
  rcases h with rfl | ⟨te, rfl, hzero, -⟩
  · exact hinv
  · exact hinv.append_zero hzero

/-- A list with no reference has the invariant, with no sort clause. -/
theorem SortGroupInv.of_zero (h : ∀ te ∈ tl, te.ressortgroupref = 0) : SortGroupInv [] tl :=
  ⟨fun _ _ te _ hte _ hne _ => absurd (h te (List.mem_iff_getElem?.2 ⟨_, hte⟩)) hne,
    fun te hte hne => absurd (h te hte) hne, fun _ hsc => nomatch hsc⟩

/-- `ORDER BY` keeps the invariant, with the sort clauses it adds, and moves the
counter only. -/
theorem transformCypherOrderBy_inv {sortItems : List SortBy}
    {sortList sortList' : List SortGroupClause} (hinv : SortGroupInv sortList tl)
    (h : (transformCypherOrderBy sortItems sortList tl).run s = .ok ((sortList', tl'), s')) :
    SortGroupInv sortList' tl' ∧ resnoOnly.rel s s' := by
  induction sortItems generalizing sortList tl s with
  | nil =>
    obtain ⟨⟨⟩, rfl⟩ := run_pure_ok h
    exact ⟨hinv, resnoOnly.refl _⟩
  | cons sortBy sortItems ih =>
    replace ⟨⟨i, tl₁⟩, s₁, h₁, h⟩ := run_bind_ok h
    obtain ⟨e, -, -, htl₁, hs₁⟩ := findTargetListEntry_spec h₁
    have hinv₁ := hinv.of_find htl₁
    replace ⟨⟨sl, tl₂⟩, s₂, h₂, h⟩ := run_bind_ok h
    obtain ⟨te, hte, rfl, hsl, rfl⟩ := addTargetToSortList_spec h₂
    have hinv₂ := hinv₁.step ⟨i, te, hte, rfl⟩
    have hsl : SortGroupInv sl (tl₁.set i (te.sortGroupEntry tl₁)) := by
      rcases hsl with ⟨rfl, -⟩ | ⟨c, rfl, hc, -⟩
      · exact hinv₂
      · exact hinv₂.append_sort
          ⟨_, List.mem_set _ _ (List.getElem?_eq_some_iff.1 hte).1 _, hc⟩
    obtain ⟨hinv', hs'⟩ := ih hsl h
    exact ⟨hinv', resnoOnly.trans hs₁ hs'⟩

end OrderBy

end AgeCypher
