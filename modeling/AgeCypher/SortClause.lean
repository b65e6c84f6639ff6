import AgeCypher.GroupClause
/-!
# The sort clause and the `DISTINCT` of a `RETURN`

`transform_cypher_order_by` resolves each `ORDER BY` key to an entry of the
target list (a hidden one appended when there is none), gives the entry a sort
reference, and appends a sort clause for it unless one with the same operator
refers to it already. The auto `GROUP BY` and the `DISTINCT` that run after it
only append hidden entries and give references to entries that have none
(`GrowStep`), so what `ORDER BY` settled is what the query keeps.

* `SortedBy`: the keys resolve to entries whose references sort clauses carry,
  and each sort clause is that of a key, nulls first exactly for `DESC`;
  `transformCypherOrderBy_sortedBy` proves it of the loop and `SortedBy.grow`
  carries it over the clauses after it;
* `transformDistinctClause_covers`: the distinct clause is the sort clause
  followed by clauses of visible entries, and it carries the reference of every
  visible entry;
* `returnSortClause_sortedBy`, `returnDistinct_returnedColumns`: the same of the
  query a `RETURN` compiles to. Under `DISTINCT` the rows are compared on exactly
  the returned columns, and every `ORDER BY` key is a returned column.
-/

namespace AgeCypher

/-- One step of the clauses after `ORDER BY`: a sort or group clause made for an
entry, or a hidden entry appended. -/
def GrowStep (tl tl' : List TargetEntry) : Prop :=
  SortGroupStep tl tl' ∨ ∃ te, tl' = tl ++ [te]

/-- What `ORDER BY` settles: the keys `items`, compiled to `es`, resolve to the
positions `idxs`; the entry of a key has a reference that a sort clause carries;
and each sort clause carries the reference of a key's entry, with nulls first
exactly when the key is `DESC`. -/
structure SortedBy (items : List SortBy) (sortClause : List SortGroupClause)
    (tl : List TargetEntry) (es : List Expr) (idxs : List Nat) : Prop where
  /-- One position per key. -/
  length : idxs.length = items.length
  /-- Each key resolves to its position. -/
  resolved : es.map (resolvePosition tl) = idxs.map some
  /-- The entry of a key has a reference, which a sort clause carries. -/
  sorted : ∀ j ∈ idxs, ∃ te, tl[j]? = some te ∧ te.ressortgroupref ≠ 0 ∧
    te.ressortgroupref ∈ sortClause.map (·.tleSortGroupRef)
  /-- A sort clause is that of a key. -/
  fromKeys : ∀ c ∈ sortClause, ∃ p ∈ items.zip idxs, ∃ te, tl[p.2]? = some te ∧
    te.ressortgroupref = c.tleSortGroupRef ∧ c.nullsFirst = (p.1.dir == .desc)

namespace TargetEntry

variable {te : TargetEntry} {tl : List TargetEntry}

theorem sortGroupEntry_ref_ne : (te.sortGroupEntry tl).ressortgroupref ≠ 0 := by
  rw [sortGroupEntry_ref]
  split <;> omega

@[simp] theorem sortGroupEntry_resjunk : (te.sortGroupEntry tl).resjunk = te.resjunk :=
  congrArg (fun x : Nat × Option String × Bool => x.2.2) sortGroupEntry_shape

end TargetEntry

/-! ## Lists that only grow -/

section Grow

variable {tl tl' : List TargetEntry} {j : Nat} {te : TargetEntry}

theorem GrowStep.map_key (h : GrowStep tl tl') :
    ∃ extra, tl'.map TargetEntry.key = tl.map TargetEntry.key ++ extra := by
  rcases h with h | ⟨x, rfl⟩
  · exact ⟨[], by rw [h.map_key, List.append_nil]⟩
  · exact ⟨[x.key], List.map_append _ _ _⟩

/-- An entry with a reference and a known type is left where it is. -/
theorem GrowStep.getElem?_of_known (h : GrowStep tl tl') (hj : tl[j]? = some te)
    (href : te.ressortgroupref ≠ 0) (htype : te.expr.type ≠ unknownOid) : tl'[j]? = some te := by
  rcases h with h | ⟨x, rfl⟩
  · exact h.getElem?_of_known hj href htype
  · rw [List.getElem?_append_left (List.getElem?_eq_some_iff.1 hj).1, hj]

theorem grows_map_key (h : Relation.ReflTransGen GrowStep tl tl') :
    ∃ extra, tl'.map TargetEntry.key = tl.map TargetEntry.key ++ extra := by
  induction h with
  | refl => exact ⟨[], (List.append_nil _).symm⟩
  | tail _ hstep ih =>
    obtain ⟨e₁, h₁⟩ := ih
    obtain ⟨e₂, h₂⟩ := hstep.map_key
    exact ⟨e₁ ++ e₂, by rw [h₂, h₁, List.append_assoc]⟩

theorem grows_getElem?_of_known (h : Relation.ReflTransGen GrowStep tl tl')
    (hj : tl[j]? = some te) (href : te.ressortgroupref ≠ 0) (htype : te.expr.type ≠ unknownOid) :
    tl'[j]? = some te := by
  induction h with
  | refl => exact hj
  | tail _ hstep ih => exact hstep.getElem?_of_known ih href htype

theorem grows_of_sortGroupSteps (h : Relation.ReflTransGen SortGroupStep tl tl') :
    Relation.ReflTransGen GrowStep tl tl' :=
  h.mono fun _ _ => .inl

theorem grows_of_find {e : Expr}
    (h : tl' = tl ∨ ∃ te, tl' = tl ++ [te] ∧ te.ressortgroupref = 0 ∧ te.key = e) :
    Relation.ReflTransGen GrowStep tl tl' := by
  rcases h with rfl | ⟨te, rfl, -⟩
  · exact .refl
  · exact .single (.inr ⟨te, rfl⟩)

end Grow

/-! ## `ORDER BY` -/

section OrderBy

variable {items : List SortBy} {sortClause sortClause' : List SortGroupClause}
  {tl tl' : List TargetEntry} {es : List Expr} {idxs : List Nat} {s s' : CypherParseState}

theorem SortedBy.nil : SortedBy [] [] tl [] [] :=
  ⟨rfl, rfl, (fun _ h => nomatch h), (fun _ h => nomatch h)⟩

/-- The later clauses keep what `ORDER BY` settled: the entries of the keys have
references and known types, so they stay, and entries are only appended. -/
theorem SortedBy.grow (h : SortedBy items sortClause tl es idxs)
    (hknown : ∀ te ∈ tl, te.ressortgroupref ≠ 0 → te.expr.type ≠ unknownOid)
    (hg : Relation.ReflTransGen GrowStep tl tl') : SortedBy items sortClause tl' es idxs := by
  have hkeep : ∀ j ∈ idxs, tl'[j]? = tl[j]? := fun j hj => by
    obtain ⟨te, hte, hne, -⟩ := h.sorted j hj
    rw [grows_getElem?_of_known hg hte hne (hknown te (List.mem_iff_getElem?.2 ⟨j, hte⟩) hne), hte]
  obtain ⟨extra, hkeys⟩ := grows_map_key hg
  refine ⟨h.length, resolved_of_keys_append hkeys h.resolved, fun j hj => ?_, fun c hc => ?_⟩
  · rw [hkeep j hj]
    exact h.sorted j hj
  · obtain ⟨p, hp, te, hte, hrest⟩ := h.fromKeys c hc
    exact ⟨p, hp, te, by rw [hkeep p.2 (List.of_mem_zip hp).2, hte], hrest⟩

/-- One more key, resolved to the entry `te` at `i`: the sort clauses stay, or a
clause with the entry's reference follows them. -/
theorem SortedBy.addKey {k : SortBy} {e : Expr} {i : Nat} {te : TargetEntry}
    (h : SortedBy items sortClause tl es idxs) (hres : resolvePosition tl e = some i)
    (hte : tl[i]? = some te) (href : te.ressortgroupref ≠ 0)
    (hsl : sortClause' = sortClause ∧ te.ressortgroupref ∈ sortClause.map (·.tleSortGroupRef) ∨
      ∃ c, sortClause' = sortClause ++ [c] ∧ c.tleSortGroupRef = te.ressortgroupref ∧
        c.nullsFirst = (k.dir == .desc)) :
    SortedBy (items ++ [k]) sortClause' tl (es ++ [e]) (idxs ++ [i]) := by
  have hsub : sortClause.map (·.tleSortGroupRef) ⊆ sortClause'.map (·.tleSortGroupRef) := by
    rcases hsl with ⟨rfl, -⟩ | ⟨c, rfl, -⟩
    · exact List.Subset.refl _
    · rw [List.map_append]
      exact List.subset_append_left _ _
  have hzip : (items ++ [k]).zip (idxs ++ [i]) = items.zip idxs ++ [(k, i)] := by
    rw [List.zip_append h.length.symm]
    rfl
  -- the clauses of the earlier keys
  have hold : ∀ c ∈ sortClause, ∃ p ∈ (items ++ [k]).zip (idxs ++ [i]), ∃ te, tl[p.2]? = some te ∧
      te.ressortgroupref = c.tleSortGroupRef ∧ c.nullsFirst = (p.1.dir == .desc) := by
    intro c hc
    obtain ⟨p, hp, x, hx, hrest⟩ := h.fromKeys c hc
    exact ⟨p, hzip ▸ List.mem_append_left _ hp, x, hx, hrest⟩
  refine ⟨by simp [h.length], by simp [h.resolved, hres], fun j hj => ?_, fun c hc => ?_⟩
  · rcases List.mem_append.1 hj with hj | hj
    · obtain ⟨x, hx, hne, hmem⟩ := h.sorted j hj
      exact ⟨x, hx, hne, hsub hmem⟩
    · obtain rfl := List.mem_singleton.1 hj
      refine ⟨te, hte, href, ?_⟩
      rcases hsl with ⟨rfl, hmem⟩ | ⟨c, rfl, hc, -⟩
      · exact hmem
      · simp [hc]
  · rcases hsl with ⟨rfl, -⟩ | ⟨c', rfl, hc', hdir⟩
    · exact hold c hc
    · rcases List.mem_append.1 hc with hc | hc
      · exact hold c hc
      · obtain rfl := List.mem_singleton.1 hc
        exact ⟨(k, i), by rw [hzip]; simp, te, hte, hc'.symm, hdir⟩

/-- The `ORDER BY` loop over the rest of the keys: they compile, in the state the
loop started from, to expressions that carry `SortedBy` on, and the references
stay distinct. -/
theorem transformCypherOrderBy_sortedBy {s₀ : CypherParseState} {rest : List SortBy}
    (hinv : SortGroupInv sortClause tl) (hsorted : SortedBy items sortClause tl es idxs)
    (hs : resnoOnly.rel s₀ s)
    (h : (transformCypherOrderBy rest sortClause tl).run s = .ok ((sortClause', tl'), s')) :
    ∃ es' idxs', ((rest.map (·.node)).mapM transformCypherExpr).run s₀ = .ok (es', s₀) ∧
      SortedBy (items ++ rest) sortClause' tl' (es ++ es') (idxs ++ idxs') := by
  induction rest generalizing items sortClause tl es idxs s with
  | nil =>
    obtain ⟨⟨⟩, rfl⟩ := run_pure_ok h
    exact ⟨[], [], rfl, by simpa using hsorted⟩
  | cons sortBy rest ih =>
    replace ⟨⟨i, tl₁⟩, s₁, h₁, h⟩ := run_bind_ok h
    obtain ⟨e, he, hres, htl₁, hs₁⟩ := findTargetListEntry_spec h₁
    replace ⟨⟨sl, tl₂⟩, s₂, h₂, h⟩ := run_bind_ok h
    obtain ⟨te, hte, rfl, hsl, rfl⟩ := addTargetToSortList_spec h₂
    have hstep : SortGroupStep tl₁ (tl₁.set i (te.sortGroupEntry tl₁)) := ⟨i, te, hte, rfl⟩
    have hinv₂ := (hinv.of_find htl₁).step hstep
    have hinv₃ : SortGroupInv sl (tl₁.set i (te.sortGroupEntry tl₁)) := by
      rcases hsl with ⟨rfl, -⟩ | ⟨c, rfl, hc, -⟩
      · exact hinv₂
      · exact hinv₂.append_sort ⟨_, List.mem_set _ _ (List.getElem?_eq_some_iff.1 hte).1 _, hc⟩
    have hres₂ : resolvePosition (tl₁.set i (te.sortGroupEntry tl₁)) e = some i := by
      rw [resolvePosition_congr (map_key_set hte TargetEntry.sortGroupEntry_key)]
      exact hres
    have hsorted₂ := (hsorted.grow hinv.known ((grows_of_find htl₁).tail (.inl hstep))).addKey
      hres₂ (List.getElem?_set_self (List.getElem?_eq_some_iff.1 hte).1)
      TargetEntry.sortGroupEntry_ref_ne hsl
    obtain ⟨es', idxs', hes', hsorted'⟩ := ih hinv₃ hsorted₂ (resnoOnly.trans hs hs₁) h
    -- the key compiles the same in the state the loop started from
    have he₀ : (transformCypherExpr sortBy.node).run s₀ = .ok (e, s₀) :=
      (transformCypherExpr_namespaceReader _ s₀ s e s (by rw [hs]) (by rw [hs]) he).2
    refine ⟨e :: es', i :: idxs', ?_, by simpa using hsorted'⟩
    simp only [List.map_cons, List.mapM_cons, run_bind, he₀, hes', except_ok_bind, run_pure]

end OrderBy

/-! ## The auto `GROUP BY` only grows the list -/

section Group

variable {tl : List TargetEntry} {sortClause : List SortGroupClause} {s s' : CypherParseState}

theorem transformGroupClauseExpr_grows {flatresult : List SortGroupClause} {seenLocal : List Nat}
    {gexpr : CypherExpr} {toplevel : Bool} {r : Nat × List SortGroupClause × List TargetEntry}
    (h : (transformGroupClauseExpr flatresult seenLocal gexpr tl sortClause toplevel).run s =
      .ok (r, s')) :
    Relation.ReflTransGen GrowStep tl r.2.2 := by
  replace ⟨⟨i, tl₁⟩, s₁, h₁, h⟩ := run_bind_ok h
  obtain ⟨e, -, -, htl₁, -⟩ := findTargetListEntry_spec h₁
  have hfind := grows_of_find htl₁
  replace ⟨te, s₂, h₂, h⟩ := run_bind_ok h
  obtain ⟨-, rfl⟩ := entryAt_spec h₂
  replace ⟨st, s₃, h₃, h⟩ := run_bind_ok h
  obtain ⟨rfl, rfl⟩ := run_get_ok h₃
  -- the default group clause is one clause made for the entry
  have hdefault : ∀ {r t}, (do
      let (flatresult, targetList) ← addTargetToGroupList tl₁ i flatresult
      let tle ← entryAt targetList i
      pure (tle.ressortgroupref, flatresult, targetList) :
        TransformM (Nat × List SortGroupClause × List TargetEntry)).run t = .ok (r, s') →
      Relation.ReflTransGen GrowStep tl r.2.2 := by
    intro r t h
    replace ⟨⟨fl, tl₂⟩, t₁, h₁, h⟩ := run_bind_ok h
    obtain ⟨te, hte, rfl, -, -⟩ := addTargetToGroupList_spec h₁
    replace ⟨te', t₂, h₂, h⟩ := run_bind_ok h
    obtain ⟨-, rfl⟩ := entryAt_spec h₂
    obtain ⟨rfl, rfl⟩ := run_pure_ok h
    exact hfind.tail (.inl ⟨i, te, hte, rfl⟩)
  dsimp only at h
  split at h
  · split at h
    · obtain ⟨rfl, rfl⟩ := run_pure_ok h
      exact hfind
    · split at h
      · obtain ⟨rfl, rfl⟩ := run_pure_ok h
        exact hfind
      · split at h
        · obtain ⟨rfl, rfl⟩ := run_pure_ok h
          exact hfind
        · exact hdefault h
  · exact hdefault h

theorem transformGroupClauseLoop_grows {grouplist : List CypherExpr}
    {result : List SortGroupClause} {seenLocal : List Nat} {r : List SortGroupClause × List TargetEntry}
    (h : (transformGroupClauseLoop sortClause grouplist result seenLocal tl).run s = .ok (r, s')) :
    Relation.ReflTransGen GrowStep tl r.2 := by
  induction grouplist generalizing result seenLocal tl s with
  | nil =>
    obtain ⟨rfl, rfl⟩ := run_pure_ok h
    exact .refl
  | cons gexpr grouplist ih =>
    replace ⟨⟨ref, result₁, tl₁⟩, s₁, h₁, h⟩ := run_bind_ok h
    exact (transformGroupClauseExpr_grows h₁).trans (ih h)

end Group

/-! ## `DISTINCT` -/

section Distinct

variable {tl tl' : List TargetEntry} {sortClause : List SortGroupClause} {s s' : CypherParseState}

/-- Every sort clause refers to a visible entry. -/
theorem checkDistinctSortKeys_visible {u : Unit} :
    ∀ {sortClause : List SortGroupClause}, (checkDistinctSortKeys tl sortClause).run s = .ok (u, s') →
      ∀ c ∈ sortClause, ∃ te ∈ tl, te.resjunk = false ∧ te.ressortgroupref = c.tleSortGroupRef
  | [], _ => fun _ h => nomatch h
  | scl :: sortClause, h => by
    unfold checkDistinctSortKeys at h
    split at h
    · cases h
    · rename_i tle htle
      split at h
      · cases h
      · rename_i hvis
        intro c hc
        rcases List.mem_cons.1 hc with rfl | hc
        · exact ⟨tle, List.mem_of_find?_eq_some htle, by simpa using hvis,
            by simpa using List.find?_some htle⟩
        · exact checkDistinctSortKeys_visible h c hc

/-- The visible-column loop of `DISTINCT`, from position `i` on: the clauses it
appends are those of visible entries, and afterwards every visible entry has a
reference that a clause carries. -/
theorem addDistinctColumns_covers {groupList : List SortGroupClause} {n i : Nat}
    {r : List SortGroupClause × List TargetEntry}
    (hcov : ∀ k < i, ∀ te, tl[k]? = some te → te.resjunk = false →
      te.ressortgroupref ≠ 0 ∧ te.ressortgroupref ∈ groupList.map (·.tleSortGroupRef))
    (hn : i + n = tl.length) (h : (addDistinctColumns groupList tl n i).run s = .ok (r, s')) :
    ∃ extra, r.1 = groupList ++ extra ∧
      (∀ c ∈ extra, ∃ te ∈ r.2, te.resjunk = false ∧ te.ressortgroupref = c.tleSortGroupRef) ∧
      ∀ te ∈ r.2, te.resjunk = false →
        te.ressortgroupref ≠ 0 ∧ te.ressortgroupref ∈ r.1.map (·.tleSortGroupRef) := by
  induction n generalizing groupList tl i s with
  | zero =>
    obtain ⟨rfl, rfl⟩ := run_pure_ok h
    refine ⟨[], (List.append_nil _).symm, (fun _ h => nomatch h), fun te hte hvis => ?_⟩
    obtain ⟨k, hk⟩ := List.mem_iff_getElem?.1 hte
    have hk' : k < tl.length := (List.getElem?_eq_some_iff.1 hk).1
    exact hcov k (by omega) te hk hvis
  | succ n ih =>
    replace ⟨te, s₁, h₁, h⟩ := run_bind_ok h
    obtain ⟨hte, rfl⟩ := entryAt_spec h₁
    have hi : i < tl.length := (List.getElem?_eq_some_iff.1 hte).1
    replace ⟨⟨gl, tl₁⟩, s₂, h₂, h⟩ := run_bind_ok h
    split at h₂
    · -- a hidden entry adds nothing
      rename_i hjunk
      obtain ⟨⟨⟩, rfl⟩ := run_pure_ok h₂
      refine ih (fun k hk x hx hvis => ?_) (by omega) h
      rcases Nat.lt_succ_iff_lt_or_eq.1 hk with hk | rfl
      · exact hcov k hk x hx hvis
      · obtain rfl := Option.some.inj (hte.symm.trans hx)
        simp [hjunk] at hvis
    · rename_i hvis
      obtain ⟨te₀, hte₀, rfl, hgl, rfl⟩ := addTargetToGroupList_spec h₂
      obtain rfl := Option.some.inj (hte.symm.trans hte₀)
      have hte₁ : (tl.set i (te.sortGroupEntry tl))[i]? = some (te.sortGroupEntry tl) :=
        List.getElem?_set_self hi
      have hsub : groupList.map (·.tleSortGroupRef) ⊆ gl.map (·.tleSortGroupRef) := by
        rcases hgl with ⟨-, -, rfl⟩ | ⟨-, rfl⟩
        · exact List.Subset.refl _
        · rw [List.map_append]
          exact List.subset_append_left _ _
      -- the entry at `i` now has a reference that a clause carries
      have hcov₁ : ∀ k < i + 1, ∀ x, (tl.set i (te.sortGroupEntry tl))[k]? = some x →
          x.resjunk = false →
            x.ressortgroupref ≠ 0 ∧ x.ressortgroupref ∈ gl.map (·.tleSortGroupRef) := by
        intro k hk x hx hvis'
        rcases Nat.lt_succ_iff_lt_or_eq.1 hk with hk | rfl
        · rw [List.getElem?_set_ne (by omega)] at hx
          exact (hcov k hk x hx hvis').imp_right fun hmem => hsub hmem
        · obtain rfl := Option.some.inj (hte₁.symm.trans hx)
          refine ⟨TargetEntry.sortGroupEntry_ref_ne, ?_⟩
          rcases hgl with ⟨hne, hin, rfl⟩ | ⟨-, rfl⟩
          · rwa [TargetEntry.sortGroupEntry_ref, if_neg hne]
          · simp [defaultGroupClause]
      obtain ⟨extra, hr, hextra, hcov'⟩ := ih hcov₁ (by rw [List.length_set]; omega) h
      rcases hgl with ⟨-, -, rfl⟩ | ⟨-, rfl⟩
      · exact ⟨extra, hr, hextra, hcov'⟩
      · -- the default clause of the entry, which the later steps leave as it is
        have hkeep : r.2[i]? = some (te.sortGroupEntry tl) :=
          sortGroupSteps_getElem?_of_known (addDistinctColumns_steps h).1 hte₁
            TargetEntry.sortGroupEntry_ref_ne TargetEntry.sortGroupEntry_type_ne
        refine ⟨_ :: extra, by rw [hr, List.append_assoc, List.singleton_append], ?_, hcov'⟩
        intro c hc
        rcases List.mem_cons.1 hc with rfl | hc
        · exact ⟨_, List.mem_iff_getElem?.2 ⟨i, hkeep⟩, by simpa using hvis, rfl⟩
        · exact hextra c hc

/-- `transformDistinctClause`: the sort clauses refer to visible entries; the
distinct clause is the sort clause followed by clauses of visible entries, it is
not empty, and it carries the reference of every visible entry. -/
theorem transformDistinctClause_covers {distinctClause : List SortGroupClause}
    (h : (transformDistinctClause tl sortClause).run s = .ok ((distinctClause, tl'), s')) :
    (∀ c ∈ sortClause, ∃ te ∈ tl, te.resjunk = false ∧ te.ressortgroupref = c.tleSortGroupRef) ∧
      ∃ extra, distinctClause = sortClause ++ extra ∧ distinctClause ≠ [] ∧
        (∀ c ∈ extra, ∃ te ∈ tl', te.resjunk = false ∧ te.ressortgroupref = c.tleSortGroupRef) ∧
        ∀ te ∈ tl', te.resjunk = false → te.ressortgroupref ≠ 0 ∧
          te.ressortgroupref ∈ distinctClause.map (·.tleSortGroupRef) := by
  replace ⟨u, s₁, h₁, h⟩ := run_bind_ok h
  replace ⟨⟨result, tl₁⟩, s₂, h₂, h⟩ := run_bind_ok h
  obtain ⟨extra, hr, hextra, hcov⟩ :=
    addDistinctColumns_covers (fun k hk => absurd hk (Nat.not_lt_zero k)) (Nat.zero_add _) h₂
  dsimp only at h
  split at h
  · cases h
  · rename_i hne
    obtain ⟨⟨⟩, rfl⟩ := run_pure_ok h
    exact ⟨checkDistinctSortKeys_visible h₁, extra, hr, by simpa using hne, hextra, hcov⟩

end Distinct

/-! ## The sort clause of a `RETURN` -/

section Return

variable {prev : Option (TransformM Query)} {self : CypherReturn} {s s' : CypherParseState}
  {q : Query}

/-- The stages of a `RETURN` after `ORDER BY` and the auto `GROUP BY`: the keys
compile, in the state the clause ends in, and `SortedBy` holds of the list the
`DISTINCT` (if any) starts from. -/
theorem transformCypherReturn_sortedBy
    (h : (transformCypherReturn prev self).run s = .ok (q, s')) :
    ∃ tl es idxs, ((self.orderBy.map (·.node)).mapM transformCypherExpr).run s' = .ok (es, s') ∧
      SortGroupInv q.sortClause tl ∧ SortedBy self.orderBy q.sortClause tl es idxs ∧
      (self.distinct = true ∧ (∃ t t', (transformDistinctClause tl q.sortClause).run t =
          .ok ((q.distinctClause, q.targetList), t')) ∨
        self.distinct = false ∧ q.distinctClause = [] ∧ q.targetList = tl) := by
  obtain ⟨_, s₁, -, h⟩ := run_bind_ok h
  replace ⟨⟨tl₁, group⟩, s₂, h₂, h⟩ := run_bind_ok h
  obtain ⟨hzero, -, -⟩ := transformCypherItemList_spec h₂
  replace ⟨⟨sortClause, tl₂⟩, s₃, h₃, h⟩ := run_bind_ok h
  obtain ⟨hinv₂, hs₃⟩ := transformCypherOrderBy_inv (SortGroupInv.of_zero hzero) h₃
  obtain ⟨es, idxs, hes, hsorted⟩ :=
    transformCypherOrderBy_sortedBy (SortGroupInv.of_zero hzero) SortedBy.nil (resnoOnly.refl s₂) h₃
  replace ⟨⟨groupClause, tl₃⟩, s₄, h₄, h⟩ := run_bind_ok h
  obtain ⟨_, _, -, hloop, hs₄⟩ := transformGroupClause_spec hinv₂ h₄
  have hsorted₃ := hsorted.grow hinv₂.known (transformGroupClauseLoop_grows h₄)
  replace ⟨⟨distinctClause, tl₄⟩, s₅, h₅, h⟩ := run_bind_ok h
  have hs₅ : s₅ = s₄ := by
    split at h₅
    · exact (transformDistinctClause_steps h₅).2
    · exact (run_pure_ok h₅).2
  replace ⟨_, s₆, h₆, h⟩ := run_bind_ok h
  have hs₆ := transformCypherLimit_readOnly _ _ _ _ _ h₆
  replace ⟨_, s₇, h₇, h⟩ := run_bind_ok h
  have hs₇ := transformCypherLimit_readOnly _ _ _ _ _ h₇
  replace ⟨st, s₈, h₈, h⟩ := run_bind_ok h
  obtain ⟨-, hs₈⟩ := run_get_ok h₈
  replace ⟨_, s₉, h₉, h⟩ := run_bind_ok h
  have hs₉ := parseCheckAggregates_readOnly _ _ _ _ h₉
  obtain ⟨rfl, hs'⟩ := run_pure_ok h
  have hfin : s' = { s₂ with pNextResno := s'.pNextResno } := by
    rw [hs', hs₉, hs₈, hs₇, hs₆, hs₅]
    exact resnoOnly.trans hs₃ hs₄
  refine ⟨tl₃, es, idxs, (NamespaceReader.mapM transformCypherExpr_namespaceReader _ s' s₂ es s₂
    (by rw [hfin]) (by rw [hfin]) (by simpa using hes)).2, hloop.inv, by simpa using hsorted₃, ?_⟩
  split at h₅
  · rename_i hd
    exact .inl ⟨hd, s₄, s₅, h₅⟩
  · rename_i hd
    obtain ⟨⟨⟩, -⟩ := run_pure_ok h₅
    exact .inr ⟨by simpa using hd, rfl, rfl⟩

/-- The sort clause of a `RETURN`: the `ORDER BY` keys compile, in the state the
clause ends in, to expressions that resolve to entries of the final target list;
each such entry has a reference that a sort clause carries, and each sort clause
carries the reference of a key's entry, with nulls first exactly when the key is
`DESC`. -/
theorem returnSortClause_sortedBy (prev : Option (TransformM Query)) (self : CypherReturn)
    (s s' : CypherParseState) (q : Query) (h : (transformCypherReturn prev self).run s = .ok (q, s')) :
    ∃ es idxs, ((self.orderBy.map (·.node)).mapM transformCypherExpr).run s' = .ok (es, s') ∧
      SortedBy self.orderBy q.sortClause q.targetList es idxs := by
  obtain ⟨tl, es, idxs, hes, hinv, hsorted, hd⟩ := transformCypherReturn_sortedBy h
  refine ⟨es, idxs, hes, ?_⟩
  rcases hd with ⟨-, t, t', hd⟩ | ⟨-, -, hq⟩
  · exact hsorted.grow hinv.known (grows_of_sortGroupSteps (transformDistinctClause_steps hd).1)
  · exact hq ▸ hsorted

/-- `RETURN k ORDER BY c DESC`: `c` is sorted on through a hidden entry. -/
theorem returnHiddenKeyDesc_sortedBy :
    ∃ q s', (transformCypherReturn none ⟨false, [⟨none, .value ⟨1, agtypeOid, false, false, [], "k"⟩⟩],
        [⟨.value ⟨2, agtypeOid, false, false, [], "c"⟩, .desc⟩], none, none⟩).run
        (rootParseState ⟨[], [(agtypeOid, ⟨1, 2, 3, true⟩)], [], [], 0⟩) = .ok (q, s') ∧
      ∃ es idxs, (([⟨.value ⟨2, agtypeOid, false, false, [], "c"⟩, .desc⟩] : List SortBy).map (·.node)
          |>.mapM transformCypherExpr).run s' = .ok (es, s') ∧
        SortedBy [⟨.value ⟨2, agtypeOid, false, false, [], "c"⟩, .desc⟩] q.sortClause q.targetList es idxs := by
  obtain ⟨q, s', h⟩ : ∃ q s', (transformCypherReturn none ⟨false,
      [⟨none, .value ⟨1, agtypeOid, false, false, [], "k"⟩⟩],
      [⟨.value ⟨2, agtypeOid, false, false, [], "c"⟩, .desc⟩], none, none⟩).run
      (rootParseState ⟨[], [(agtypeOid, ⟨1, 2, 3, true⟩)], [], [], 0⟩) = .ok (q, s') := ⟨_, _, rfl⟩
  exact ⟨q, s', h, returnSortClause_sortedBy _ _ _ _ _ h⟩

/- The sort clause sorts on the hidden second entry, nulls first. -/
example : ((transformCypherReturn none ⟨false, [⟨none, .value ⟨1, agtypeOid, false, false, [], "k"⟩⟩],
      [⟨.value ⟨2, agtypeOid, false, false, [], "c"⟩, .desc⟩], none, none⟩).run
      (rootParseState ⟨[], [(agtypeOid, ⟨1, 2, 3, true⟩)], [], [], 0⟩)).map
      (fun r => (r.1.sortClause, r.1.targetList.map (·.resjunk))) =
    .ok ([⟨1, 2, 3, true, true⟩], [false, true]) := rfl

/-- `RETURN DISTINCT`: the distinct clause starts with the sort clause and is not
empty; it carries exactly the references of the returned (visible) columns, so
rows are compared on those columns; and every `ORDER BY` key compiles to an
expression that resolves to a returned column. -/
theorem returnDistinct_returnedColumns (prev : Option (TransformM Query)) (self : CypherReturn)
    (s s' : CypherParseState) (q : Query) (hd : self.distinct = true)
    (h : (transformCypherReturn prev self).run s = .ok (q, s')) :
    q.sortClause <+: q.distinctClause ∧ q.distinctClause ≠ [] ∧
      (∀ r, r ∈ q.distinctClause.map (·.tleSortGroupRef) ↔
        ∃ te ∈ q.targetList, te.resjunk = false ∧ te.ressortgroupref = r) ∧
      ∃ (es : List Expr) (idxs : List Nat),
        ((self.orderBy.map (·.node)).mapM transformCypherExpr).run s' = .ok (es, s') ∧
        es.map (resolvePosition q.targetList) = idxs.map some ∧
        ∀ j ∈ idxs, ∃ te, q.targetList[j]? = some te ∧ te.resjunk = false := by
  obtain ⟨tl, es, idxs, hes, hinv, hsorted, ⟨-, t, t', hdc⟩ | ⟨hnd, -⟩⟩ :=
    transformCypherReturn_sortedBy h
  swap
  · exact absurd hd (by simp [hnd])
  have hsteps := (transformDistinctClause_steps hdc).1
  obtain ⟨hsortVisible, extra, hdc', hne, hextra, hcov⟩ := transformDistinctClause_covers hdc
  -- an entry with a reference stays where it is
  have hkeep : ∀ (j : Nat) (te : TargetEntry), tl[j]? = some te → te.ressortgroupref ≠ 0 → q.targetList[j]? = some te :=
    fun j te hte hne => sortGroupSteps_getElem?_of_known hsteps hte hne
      (hinv.known te (List.mem_iff_getElem?.2 ⟨j, hte⟩) hne)
  -- the visible entry a sort clause refers to, at its position
  have hsortEntry : ∀ c ∈ q.sortClause, ∃ (j : Nat) (te : TargetEntry), tl[j]? = some te ∧ te.resjunk = false ∧
      te.ressortgroupref = c.tleSortGroupRef ∧ te.ressortgroupref ≠ 0 := by
    intro c hc
    obtain ⟨te, hte, hvis, hr⟩ := hsortVisible c hc
    obtain ⟨p, hp, x, hx, hxr, -⟩ := hsorted.fromKeys c hc
    obtain ⟨y, hy, hne, -⟩ := hsorted.sorted p.2 (List.of_mem_zip hp).2
    obtain rfl := Option.some.inj (hx.symm.trans hy)
    obtain ⟨j, hj⟩ := List.mem_iff_getElem?.1 hte
    exact ⟨j, te, hj, hvis, hr, hr ▸ hxr ▸ hne⟩
  refine ⟨⟨extra, hdc'.symm⟩, hne, fun r => ⟨fun hr => ?_, ?_⟩, es, idxs, hes, ?_, fun j hj => ?_⟩
  · obtain ⟨c, hc, rfl⟩ := List.mem_map.1 hr
    rcases List.mem_append.1 (hdc' ▸ hc) with hc | hc
    · obtain ⟨j, te, hte, hvis, hr, hne⟩ := hsortEntry c hc
      exact ⟨te, List.mem_iff_getElem?.2 ⟨j, hkeep j te hte hne⟩, hvis, hr⟩
    · exact hextra c hc
  · rintro ⟨te, hte, hvis, rfl⟩
    exact (hcov te hte hvis).2
  · exact (hsorted.grow hinv.known (grows_of_sortGroupSteps hsteps)).resolved
  · -- the key's entry has a reference that a sort clause carries; that clause's
    -- visible entry has the same reference, so it is the key's entry
    obtain ⟨te, hte, hne, hmem⟩ := hsorted.sorted j hj
    obtain ⟨c, hc, hcr⟩ := List.mem_map.1 hmem
    obtain ⟨j', te', hte', hvis, hr, -⟩ := hsortEntry c hc
    obtain rfl := hinv.distinct j' j te' te hte' hte (hr ▸ hcr ▸ hne) (hr.trans hcr)
    obtain rfl := Option.some.inj (hte'.symm.trans hte)
    exact ⟨te', hkeep j' te' hte' (hr ▸ hcr ▸ hne), hvis⟩

/-- `RETURN DISTINCT k ORDER BY k DESC`. -/
theorem returnDistinctKeyDesc_returnedColumns :
    ∃ q s', (transformCypherReturn none ⟨true, [⟨none, .value ⟨1, agtypeOid, false, false, [], "k"⟩⟩],
        [⟨.value ⟨1, agtypeOid, false, false, [], "k"⟩, .desc⟩], none, none⟩).run
        (rootParseState ⟨[], [(agtypeOid, ⟨1, 2, 3, true⟩)], [], [], 0⟩) = .ok (q, s') ∧
      q.sortClause <+: q.distinctClause ∧ q.distinctClause ≠ [] ∧
      (∀ r, r ∈ q.distinctClause.map (·.tleSortGroupRef) ↔
        ∃ te ∈ q.targetList, te.resjunk = false ∧ te.ressortgroupref = r) ∧
      ∃ (es : List Expr) (idxs : List Nat), (([⟨.value ⟨1, agtypeOid, false, false, [], "k"⟩, .desc⟩] :
          List SortBy).map (·.node) |>.mapM transformCypherExpr).run s' = .ok (es, s') ∧
        es.map (resolvePosition q.targetList) = idxs.map some ∧
        ∀ j ∈ idxs, ∃ te, q.targetList[j]? = some te ∧ te.resjunk = false := by
  obtain ⟨q, s', h⟩ : ∃ q s', (transformCypherReturn none ⟨true,
      [⟨none, .value ⟨1, agtypeOid, false, false, [], "k"⟩⟩],
      [⟨.value ⟨1, agtypeOid, false, false, [], "k"⟩, .desc⟩], none, none⟩).run
      (rootParseState ⟨[], [(agtypeOid, ⟨1, 2, 3, true⟩)], [], [], 0⟩) = .ok (q, s') := ⟨_, _, rfl⟩
  exact ⟨q, s', h, returnDistinct_returnedColumns _ _ _ _ _ rfl h⟩

/- The distinct clause is the one `DESC` sort clause of `k`. -/
example : ((transformCypherReturn none ⟨true, [⟨none, .value ⟨1, agtypeOid, false, false, [], "k"⟩⟩],
      [⟨.value ⟨1, agtypeOid, false, false, [], "k"⟩, .desc⟩], none, none⟩).run
      (rootParseState ⟨[], [(agtypeOid, ⟨1, 2, 3, true⟩)], [], [], 0⟩)).map (·.1.distinctClause) =
    .ok [⟨1, 2, 3, true, true⟩] := rfl

end Return

end AgeCypher
