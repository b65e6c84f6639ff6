import Mathlib.Data.List.Dedup
import AgeCypher.SortGroup
/-!
# The auto `GROUP BY` of a `RETURN`

`transform_group_clause` groups by every expression of the auto-group list. Each
expression resolves to a target entry: the first whose expression, implicit
coercions stripped, is the compiled expression, or a hidden entry appended for it
(`find_target_list_entry`). Each distinct entry gets one group clause, in order of
first occurrence: a copy of the first `ORDER BY` clause that refers to it, or else
the default operators of its type with nulls last.

* `groupClauseFor`, `groupedClauses`: what the clauses should be;
* `GroupLoop`: the state of the loop after a prefix of the list, kept by
  `transformGroupClauseExpr_spec` and carried over the whole list by
  `transformGroupClauseLoop_spec`;
* `returnGroupClause_groupedClauses`: the group clauses of a `RETURN`, after its
  `ORDER BY` and `DISTINCT`.
-/

namespace AgeCypher

/-- The distinct elements of a list, in order of first occurrence. -/
def firstOccurrences (l : List Nat) : List Nat := l.reverse.dedup.reverse

/-- The group clause of an entry: a copy of the first sort clause that refers to
it, else the default one. -/
def groupClauseFor (typeCache : List (Nat × TypeCacheEntry)) (sortClause : List SortGroupClause)
    (te : TargetEntry) : SortGroupClause :=
  (sortClause.find? (·.tleSortGroupRef == te.ressortgroupref)).getD (defaultGroupClause typeCache te)

/-- The group clauses of the entries at positions `idxs`: one per distinct
position, in order of first occurrence. -/
def groupedClauses (typeCache : List (Nat × TypeCacheEntry)) (sortClause : List SortGroupClause)
    (tl : List TargetEntry) (idxs : List Nat) : List SortGroupClause :=
  (firstOccurrences idxs).filterMap fun i => tl[i]?.map (groupClauseFor typeCache sortClause)

/-- The auto-group list of an item list: the expressions of the items without an
aggregate, when some item has one. -/
def autoGroupList (items : List ResTarget) : List CypherExpr :=
  if items.any (·.val.hasAgg) then (items.filter (!·.val.hasAgg)).map (·.val) else []

/-! ## The specification -/

section Spec

variable {tc : List (Nat × TypeCacheEntry)} {sortClause : List SortGroupClause}
  {tl tl' : List TargetEntry} {l idxs : List Nat} {i : Nat} {te : TargetEntry} {e : Expr}

theorem mem_firstOccurrences : i ∈ firstOccurrences l ↔ i ∈ l := by
  simp [firstOccurrences]

theorem firstOccurrences_append_of_mem (h : i ∈ l) :
    firstOccurrences (l ++ [i]) = firstOccurrences l := by
  simp [firstOccurrences, List.dedup_cons_of_mem (List.mem_reverse.2 h)]

theorem firstOccurrences_append_of_not_mem (h : i ∉ l) :
    firstOccurrences (l ++ [i]) = firstOccurrences l ++ [i] := by
  simp [firstOccurrences, List.dedup_cons_of_not_mem (mt List.mem_reverse.1 h)]

theorem nodup_firstOccurrences (l : List Nat) : (firstOccurrences l).Nodup :=
  List.nodup_reverse.2 (List.nodup_dedup _)

/-- The clause of an entry carries the entry's reference. -/
@[simp] theorem groupClauseFor_ref :
    (groupClauseFor tc sortClause te).tleSortGroupRef = te.ressortgroupref := by
  unfold groupClauseFor
  cases hf : sortClause.find? (·.tleSortGroupRef == te.ressortgroupref) with
  | none => rfl
  | some sc => simpa using List.find?_some hf

theorem groupClauseFor_of_find (h : sortClause.find? (·.tleSortGroupRef == te.ressortgroupref) = none) :
    groupClauseFor tc sortClause te = defaultGroupClause tc te := by
  simp [groupClauseFor, h]

theorem groupedClauses_append_of_mem (h : i ∈ idxs) :
    groupedClauses tc sortClause tl (idxs ++ [i]) = groupedClauses tc sortClause tl idxs := by
  rw [groupedClauses, firstOccurrences_append_of_mem h, groupedClauses]

theorem groupedClauses_append_of_not_mem (h : i ∉ idxs) (hte : tl[i]? = some te) :
    groupedClauses tc sortClause tl (idxs ++ [i]) =
      groupedClauses tc sortClause tl idxs ++ [groupClauseFor tc sortClause te] := by
  simp [groupedClauses, firstOccurrences_append_of_not_mem h, hte]

/-- The clauses read the entries at their positions only. -/
theorem groupedClauses_congr (h : ∀ j ∈ idxs, tl'[j]? = tl[j]?) :
    groupedClauses tc sortClause tl' idxs = groupedClauses tc sortClause tl idxs :=
  List.filterMap_congr fun j hj => by rw [h j (mem_firstOccurrences.1 hj)]

/-- The references of the clauses are those of the entries at the positions. -/
theorem mem_groupedClauses_ref {r : Nat} :
    r ∈ (groupedClauses tc sortClause tl idxs).map (·.tleSortGroupRef) ↔
      ∃ j ∈ idxs, ∃ te, tl[j]? = some te ∧ te.ressortgroupref = r := by
  simp only [groupedClauses, List.map_filterMap, List.mem_filterMap, Option.map_map]
  constructor
  · rintro ⟨j, hj, hr⟩
    cases hte : tl[j]? with
    | none => simp [hte] at hr
    | some te => exact ⟨j, mem_firstOccurrences.1 hj, te, hte, by simpa [hte] using hr⟩
  · rintro ⟨j, hj, te, hte, rfl⟩
    exact ⟨j, mem_firstOccurrences.2 hj, by simp [hte]⟩

/-- Distinct positions of entries with distinct references give clauses with
distinct references. -/
theorem groupedClauses_refs_nodup (hrefs : RefsDistinct tl)
    (hgrouped : ∀ i ∈ idxs, ∃ te, tl[i]? = some te ∧ te.ressortgroupref ≠ 0) :
    ((groupedClauses tc sortClause tl idxs).map (·.tleSortGroupRef)).Nodup := by
  simp only [groupedClauses, List.map_filterMap, Option.map_map, Function.comp_def,
    groupClauseFor_ref]
  have hpos : (firstOccurrences idxs).Pairwise fun a b => a ≠ b ∧ a ∈ idxs ∧ b ∈ idxs :=
    (nodup_firstOccurrences idxs).imp_of_mem fun ha hb hab =>
      ⟨hab, mem_firstOccurrences.1 ha, mem_firstOccurrences.1 hb⟩
  refine hpos.filterMap _ fun a b ⟨hab, ha, _⟩ r hr r' hr' hrr => hab ?_
  obtain ⟨x, hx, rfl⟩ := Option.map_eq_some'.1 hr
  obtain ⟨y, hy, rfl⟩ := Option.map_eq_some'.1 hr'
  obtain ⟨x', hx', hne⟩ := hgrouped a ha
  obtain rfl : x = x' := Option.some.inj (hx.symm.trans hx')
  exact hrefs a b x y hx hy hne hrr

end Spec

/-! ## The loop -/

section Loop

variable {tc : List (Nat × TypeCacheEntry)} {sortClause : List SortGroupClause}
  {tl tl' : List TargetEntry} {es : List Expr} {idxs : List Nat} {result : List SortGroupClause}
  {s s' : CypherParseState} {e : Expr} {i : Nat} {te : TargetEntry}

/-- The loop of `transform_group_clause` after a prefix of the auto-group list:
the prefix compiled to `es`, which resolve to the positions `idxs`, and the
clauses so far those of `groupedClauses`. -/
structure GroupLoop (tc : List (Nat × TypeCacheEntry)) (sortClause : List SortGroupClause)
    (tl : List TargetEntry) (es : List Expr) (idxs : List Nat) (result : List SortGroupClause) :
    Prop where
  /-- The references of the list and of the sort clauses. -/
  inv : SortGroupInv sortClause tl
  /-- Each expression resolves to its position. -/
  resolved : es.map (resolvePosition tl) = idxs.map some
  /-- A grouped entry has a reference. -/
  grouped : ∀ i ∈ idxs, ∃ te, tl[i]? = some te ∧ te.ressortgroupref ≠ 0
  /-- The clauses so far. -/
  clauses : result = groupedClauses tc sortClause tl idxs

/-- Entries appended after the resolved positions move none of them. -/
theorem resolved_of_keys_append {extra : List Expr}
    (h : tl'.map TargetEntry.key = tl.map TargetEntry.key ++ extra)
    (hres : es.map (resolvePosition tl) = idxs.map some) :
    es.map (resolvePosition tl') = idxs.map some := by
  rw [← hres]
  refine List.map_congr_left fun x hx => ?_
  have hmem : resolvePosition tl x ∈ idxs.map some := hres ▸ List.mem_map_of_mem _ hx
  obtain ⟨k, -, hk⟩ := List.mem_map.1 hmem
  rw [← hk]
  exact resolvePosition_of_keys_append h hk.symm

/-- A hidden entry appended for a key keeps the loop's state. -/
theorem GroupLoop.of_find (hloop : GroupLoop tc sortClause tl es idxs result)
    (h : tl' = tl ∨ ∃ te, tl' = tl ++ [te] ∧ te.ressortgroupref = 0 ∧ te.key = e) :
    GroupLoop tc sortClause tl' es idxs result := by
  rcases h with rfl | ⟨te, rfl, hzero, -⟩
  · exact hloop
  · have hinit : ∀ j ∈ idxs, (tl ++ [te])[j]? = tl[j]? := fun j hj => by
      obtain ⟨x, hx, -⟩ := hloop.grouped j hj
      exact List.getElem?_append_left (List.getElem?_eq_some_iff.1 hx).1
    refine ⟨hloop.inv.append_zero hzero, resolved_of_keys_append (List.map_append _ _ _) hloop.resolved,
      fun j hj => ?_, ?_⟩
    · rw [hinit j hj]
      exact hloop.grouped j hj
    · rw [hloop.clauses, groupedClauses_congr hinit]

/-- An entry is grouped exactly when a clause so far has its nonzero reference. -/
theorem GroupLoop.mem_idxs_iff (hloop : GroupLoop tc sortClause tl es idxs result)
    (hte : tl[i]? = some te) :
    i ∈ idxs ↔ te.ressortgroupref ≠ 0 ∧ te.ressortgroupref ∈ result.map (·.tleSortGroupRef) := by
  rw [hloop.clauses, mem_groupedClauses_ref]
  constructor
  · intro hi
    obtain ⟨x, hx, hne⟩ := hloop.grouped i hi
    obtain rfl : te = x := Option.some.inj (hte.symm.trans hx)
    exact ⟨hne, i, hi, te, hte, rfl⟩
  · rintro ⟨hne, j, hj, x, hx, hxr⟩
    obtain rfl := hloop.inv.distinct j i x te hx hte (hxr ▸ hne) hxr
    exact hj

/-- An expression whose entry is grouped already adds nothing. -/
theorem GroupLoop.append_mem (hloop : GroupLoop tc sortClause tl es idxs result)
    (hres : resolvePosition tl e = some i) (hi : i ∈ idxs) :
    GroupLoop tc sortClause tl (es ++ [e]) (idxs ++ [i]) result := by
  refine ⟨hloop.inv, by simp [hloop.resolved, hres], fun j hj => ?_, ?_⟩
  · rcases List.mem_append.1 hj with hj | hj
    · exact hloop.grouped j hj
    · exact hloop.grouped j (List.mem_singleton.1 hj ▸ hi)
  · rw [groupedClauses_append_of_mem hi, hloop.clauses]

/-- An entry not grouped yet with a reference gets its first sort clause. -/
theorem GroupLoop.append_sort {sc : SortGroupClause}
    (hloop : GroupLoop tc sortClause tl es idxs result) (hres : resolvePosition tl e = some i)
    (hte : tl[i]? = some te) (hne : te.ressortgroupref ≠ 0) (hi : i ∉ idxs)
    (hsc : sortClause.find? (·.tleSortGroupRef == te.ressortgroupref) = some sc) :
    GroupLoop tc sortClause tl (es ++ [e]) (idxs ++ [i]) (result ++ [sc]) := by
  refine ⟨hloop.inv, by simp [hloop.resolved, hres], fun j hj => ?_, ?_⟩
  · rcases List.mem_append.1 hj with hj | hj
    · exact hloop.grouped j hj
    · exact List.mem_singleton.1 hj ▸ ⟨te, hte, hne⟩
  · rw [groupedClauses_append_of_not_mem hi hte, hloop.clauses]
    simp [groupClauseFor, hsc]

/-- The default group clause of an entry not grouped yet: the entry is coerced
and given a reference, and its clause appended. -/
theorem GroupLoop.addDefault {ref : Nat} {result' : List SortGroupClause}
    (hloop : GroupLoop tc sortClause tl es idxs result) (hres : resolvePosition tl e = some i)
    (hte : tl[i]? = some te) (hi : i ∉ idxs)
    (hnot : ¬(te.ressortgroupref ≠ 0 ∧ te.ressortgroupref ∈ result.map (·.tleSortGroupRef)))
    (hsort : te.ressortgroupref ≠ 0 →
      sortClause.find? (·.tleSortGroupRef == te.ressortgroupref) = none)
    (htc : s.global.typeCache = tc)
    (h : (do
      let (flatresult, targetList) ← addTargetToGroupList tl i result
      let tle ← entryAt targetList i
      pure (tle.ressortgroupref, flatresult, targetList) :
        TransformM (Nat × List SortGroupClause × List TargetEntry)).run s =
      .ok ((ref, result', tl'), s')) :
    GroupLoop tc sortClause tl' (es ++ [e]) (idxs ++ [i]) result' ∧ 0 < ref ∧
      result'.map (·.tleSortGroupRef) = result.map (·.tleSortGroupRef) ++ [ref] ∧ s' = s := by
  replace ⟨⟨gl, tl₂⟩, s₁, h₁, h⟩ := run_bind_ok h
  obtain ⟨te₀, hte₀, rfl, hgl, rfl⟩ := addTargetToGroupList_spec h₁
  obtain rfl : te = te₀ := Option.some.inj (hte.symm.trans hte₀)
  obtain rfl : gl = result ++ [defaultGroupClause s₁.global.typeCache (te.sortGroupEntry tl)] := by
    rcases hgl with ⟨hne, hmem, -⟩ | ⟨-, hgl⟩
    · exact absurd ⟨hne, hmem⟩ hnot
    · exact hgl
  have hte' : (tl.set i (te.sortGroupEntry tl))[i]? = some (te.sortGroupEntry tl) :=
    List.getElem?_set_self (List.getElem?_eq_some_iff.1 hte).1
  replace ⟨te₁, s₂, h₂, h⟩ := run_bind_ok h
  obtain ⟨hte₁, rfl⟩ := entryAt_spec h₂
  obtain rfl := Option.some.inj (hte'.symm.trans hte₁)
  obtain ⟨⟨⟩, rfl⟩ := run_pure_ok h
  have href : (te.sortGroupEntry tl).ressortgroupref ≠ 0 := by
    rw [TargetEntry.sortGroupEntry_ref]
    split <;> omega
  -- a fresh reference has no sort clause
  have hfind : sortClause.find? (·.tleSortGroupRef == (te.sortGroupEntry tl).ressortgroupref) =
      none := by
    by_cases hz : te.ressortgroupref = 0
    · refine List.find?_eq_none.2 fun sc hsc => ?_
      have hle := hloop.inv.sortRefs sc hsc
      simp only [TargetEntry.sortGroupEntry_ref, if_pos hz, beq_iff_eq]
      omega
    · rw [TargetEntry.sortGroupEntry_ref, if_neg hz]
      exact hsort hz
  have hunchanged : ∀ j ∈ idxs, (tl.set i (te.sortGroupEntry tl))[j]? = tl[j]? :=
    fun j hj => List.getElem?_set_ne (by rintro rfl; exact hi hj)
  refine ⟨⟨hloop.inv.step ⟨i, te, hte, rfl⟩, ?_, fun j hj => ?_, ?_⟩, Nat.pos_of_ne_zero href,
    by simp [defaultGroupClause], rfl⟩
  · rw [List.map_append, resolvePosition_congr (map_key_set hte TargetEntry.sortGroupEntry_key),
      hloop.resolved]
    simp [hres]
  · rcases List.mem_append.1 hj with hj | hj
    · rw [hunchanged j hj]
      exact hloop.grouped j hj
    · obtain rfl := List.mem_singleton.1 hj
      exact ⟨_, hte', href⟩
  · rw [groupedClauses_append_of_not_mem hi hte', groupedClauses_congr hunchanged,
      ← hloop.clauses, groupClauseFor_of_find hfind, htc]

/-- One expression of the auto-group list: its entry is grouped once, by a copy of
its first sort clause or by the default clause, and the references grouped so far
are those of the clauses. -/
theorem transformGroupClauseExpr_spec {g : CypherExpr} {ref : Nat}
    {result' : List SortGroupClause} (hloop : GroupLoop tc sortClause tl es idxs result)
    (htc : s.global.typeCache = tc)
    (h : (transformGroupClauseExpr result (result.map (·.tleSortGroupRef)) g tl sortClause
      true).run s = .ok ((ref, result', tl'), s')) :
    ∃ e i, (transformCypherExpr g).run s = .ok (e, s) ∧
      GroupLoop tc sortClause tl' (es ++ [e]) (idxs ++ [i]) result' ∧
      (if ref > 0 then result.map (·.tleSortGroupRef) ++ [ref]
        else result.map (·.tleSortGroupRef)) = result'.map (·.tleSortGroupRef) ∧
      resnoOnly.rel s s' := by
  replace ⟨⟨i, tl₁⟩, s₁, h₁, h⟩ := run_bind_ok h
  obtain ⟨e, he, hres, htl₁, hs₁⟩ := findTargetListEntry_spec h₁
  have hloop₁ := hloop.of_find htl₁
  have htc₁ : s₁.global.typeCache = tc := by rw [hs₁]; exact htc
  refine ⟨e, i, he, ?_⟩
  replace ⟨te, s₂, h₂, h⟩ := run_bind_ok h
  obtain ⟨hte, rfl⟩ := entryAt_spec h₂
  replace ⟨st, s₃, h₃, h⟩ := run_bind_ok h
  obtain ⟨rfl, rfl⟩ := run_get_ok h₃
  dsimp only at h
  split at h
  · rename_i hpos
    split at h
    · -- grouped already
      rename_i hseen
      obtain ⟨⟨⟩, rfl⟩ := run_pure_ok h
      have hi := (hloop₁.mem_idxs_iff hte).2 ⟨Nat.pos_iff_ne_zero.1 hpos, hseen⟩
      exact ⟨hloop₁.append_mem hres hi, by simp, hs₁⟩
    · rename_i hseen
      have hi : i ∉ idxs := fun hi => hseen ((hloop₁.mem_idxs_iff hte).1 hi).2
      split at h
      · rename_i hin
        exact absurd (targetIsInSortList_zero.1 hin).2 hseen
      · split at h
        · -- the first sort clause with the entry's reference
          rename_i sc hsc
          obtain ⟨⟨⟩, rfl⟩ := run_pure_ok h
          have hscref : sc.tleSortGroupRef = te.ressortgroupref := by
            simpa using List.find?_some hsc
          exact ⟨hloop₁.append_sort hres hte (Nat.pos_iff_ne_zero.1 hpos) hi hsc,
            by simp [hpos, hscref], hs₁⟩
        · rename_i hnone
          obtain ⟨hloop₂, hpos₂, hrefs, rfl⟩ :=
            hloop₁.addDefault hres hte hi (fun h => hseen h.2) (fun _ => hnone) htc₁ h
          exact ⟨hloop₂, by simp [hpos₂, hrefs], hs₁⟩
  · rename_i hzero
    have hz : te.ressortgroupref = 0 := by omega
    obtain ⟨hloop₂, hpos₂, hrefs, rfl⟩ :=
      hloop₁.addDefault hres hte (by simp [hloop₁.mem_idxs_iff hte, hz]) (by simp [hz])
        (fun h => absurd hz h) htc₁ h
    exact ⟨hloop₂, by simp [hpos₂, hrefs], hs₁⟩

/-- The loop over the rest of the auto-group list: the rest compiles, in the
state the loop started from, to expressions that carry the loop's state on. -/
theorem transformGroupClauseLoop_spec {s₀ : CypherParseState} {grouplist : List CypherExpr}
    {r : List SortGroupClause × List TargetEntry}
    (hloop : GroupLoop s₀.global.typeCache sortClause tl es idxs result) (hs : resnoOnly.rel s₀ s)
    (h : (transformGroupClauseLoop sortClause grouplist result (result.map (·.tleSortGroupRef))
      tl).run s = .ok (r, s')) :
    ∃ es' idxs', (grouplist.mapM transformCypherExpr).run s₀ = .ok (es', s₀) ∧
      GroupLoop s₀.global.typeCache sortClause r.2 (es ++ es') (idxs ++ idxs') r.1 ∧
      resnoOnly.rel s₀ s' := by
  induction grouplist generalizing result tl es idxs s with
  | nil =>
    obtain ⟨rfl, rfl⟩ := run_pure_ok h
    exact ⟨[], [], rfl, by simpa using hloop, hs⟩
  | cons g grouplist ih =>
    replace ⟨⟨ref, result₁, tl₁⟩, s₁, h₁, h⟩ := run_bind_ok h
    obtain ⟨e, i, he, hloop₁, hseen, hs₁⟩ :=
      transformGroupClauseExpr_spec hloop (by rw [hs]) h₁
    dsimp only at h
    rw [hseen] at h
    obtain ⟨es', idxs', hes', hloop', hs'⟩ := ih hloop₁ (resnoOnly.trans hs hs₁) h
    -- the expression compiles the same in the state the loop started from
    have he₀ : (transformCypherExpr g).run s₀ = .ok (e, s₀) :=
      (transformCypherExpr_namespaceReader g s₀ s e s (by rw [hs]) (by rw [hs]) he).2
    refine ⟨e :: es', i :: idxs', ?_, by simpa using hloop', hs'⟩
    simp only [List.mapM_cons, run_bind, he₀, hes', except_ok_bind, run_pure]

/-- `transform_group_clause`: the auto-group list compiles to expressions that
resolve to positions, and the group clauses are those of `groupedClauses` over
them. -/
theorem transformGroupClause_spec {grouplist : List CypherExpr} {groupClause : List SortGroupClause}
    (hinv : SortGroupInv sortClause tl)
    (h : (transformGroupClause grouplist tl sortClause).run s = .ok ((groupClause, tl'), s')) :
    ∃ es idxs, (grouplist.mapM transformCypherExpr).run s = .ok (es, s) ∧
      GroupLoop s.global.typeCache sortClause tl' es idxs groupClause ∧ resnoOnly.rel s s' := by
  have hloop : GroupLoop s.global.typeCache sortClause tl [] [] [] :=
    ⟨hinv, rfl, (fun _ hi => nomatch hi), rfl⟩
  obtain ⟨es, idxs, hes, hloop', hs'⟩ := transformGroupClauseLoop_spec hloop (resnoOnly.refl s) h
  exact ⟨es, idxs, hes, by simpa using hloop', hs'⟩

end Loop

/-! ## The group clauses of a `RETURN` -/

section Return

variable {s s' : CypherParseState}

/-- The items' entries have no reference, and the group list holds the
expressions of the items without an aggregate. -/
theorem transformCypherItems_spec {items : List ResTarget} {tes : List TargetEntry}
    {group : List CypherExpr} {hasAgg : Bool}
    (h : (transformCypherItems items).run s = .ok ((tes, group, hasAgg), s')) :
    (∀ te ∈ tes, te.ressortgroupref = 0) ∧ group = (items.filter (!·.val.hasAgg)).map (·.val) ∧
      hasAgg = items.any (·.val.hasAgg) ∧ resnoOnly.rel s s' := by
  induction items generalizing tes group hasAgg s with
  | nil =>
    obtain ⟨⟨⟩, rfl⟩ := run_pure_ok h
    exact ⟨(fun _ h => nomatch h), rfl, rfl, resnoOnly.refl _⟩
  | cons item items ih =>
    replace ⟨te, s₁, h₁, h⟩ := run_bind_ok h
    replace ⟨⟨tes', group', hasAgg'⟩, s₂, h₂, h⟩ := run_bind_ok h
    obtain ⟨⟨⟩, rfl⟩ := run_pure_ok h
    obtain ⟨hzero, rfl, rfl, hs₂⟩ := ih h₂
    have hs₁ : resnoOnly.rel s s₁ := by
      rw [(transformCypherItem_spec h₁).2.2.2]
      exact rfl
    refine ⟨List.forall_mem_cons.2 ⟨transformCypherItem_ref h₁, hzero⟩, ?_, rfl,
      resnoOnly.trans hs₁ hs₂⟩
    cases hagg : item.val.hasAgg <;> simp [hagg]

/-- `transform_cypher_item_list`: entries with no reference, and the auto-group
list. -/
theorem transformCypherItemList_spec {items : List ResTarget} {tl : List TargetEntry}
    {group : List CypherExpr}
    (h : (transformCypherItemList items).run s = .ok ((tl, group), s')) :
    (∀ te ∈ tl, te.ressortgroupref = 0) ∧ group = autoGroupList items ∧ resnoOnly.rel s s' := by
  replace ⟨⟨tes, group', hasAgg⟩, s₁, h₁, h⟩ := run_bind_ok h
  obtain ⟨⟨⟩, rfl⟩ := run_pure_ok h
  obtain ⟨hzero, rfl, rfl, hs⟩ := transformCypherItems_spec h₁
  exact ⟨hzero, rfl, hs⟩

/-- The group clauses of a `RETURN`: the auto-group list compiles, in the state
the clause ends in, to expressions that resolve to positions of the final target
list; there is one clause per distinct position, in order of first occurrence,
the copy of the first sort clause with the entry's reference or the default
clause of the entry's type; and their references are distinct. -/
theorem returnGroupClause_groupedClauses (prev : Option (TransformM Query)) (self : CypherReturn)
    (s s' : CypherParseState) (q : Query) (h : (transformCypherReturn prev self).run s = .ok (q, s')) :
    ∃ es idxs, ((autoGroupList self.items).mapM transformCypherExpr).run s' = .ok (es, s') ∧
      es.map (resolvePosition q.targetList) = idxs.map some ∧
      q.groupClause = groupedClauses s'.global.typeCache q.sortClause q.targetList idxs ∧
      (q.groupClause.map (·.tleSortGroupRef)).Nodup := by
  obtain ⟨_, s₁, -, h⟩ := run_bind_ok h
  replace ⟨⟨tl₁, group⟩, s₂, h₂, h⟩ := run_bind_ok h
  obtain ⟨hzero, rfl, -⟩ := transformCypherItemList_spec h₂
  replace ⟨⟨sortClause, tl₂⟩, s₃, h₃, h⟩ := run_bind_ok h
  obtain ⟨hinv, -⟩ := transformCypherOrderBy_inv (SortGroupInv.of_zero hzero) h₃
  replace ⟨⟨groupClause, tl₃⟩, s₄, h₄, h⟩ := run_bind_ok h
  obtain ⟨es, idxs, hes, hloop, hs₄⟩ := transformGroupClause_spec hinv h₄
  replace ⟨⟨distinctClause, tl₄⟩, s₅, h₅, h⟩ := run_bind_ok h
  have hdistinct : Relation.ReflTransGen SortGroupStep tl₃ tl₄ ∧ s₅ = s₄ := by
    split at h₅
    · exact transformDistinctClause_steps h₅
    · obtain ⟨⟨⟩, rfl⟩ := run_pure_ok h₅
      exact ⟨.refl, rfl⟩
  obtain ⟨hsteps, hs₅⟩ := hdistinct
  replace ⟨_, s₆, h₆, h⟩ := run_bind_ok h
  have hs₆ := transformCypherLimit_readOnly _ _ _ _ _ h₆
  replace ⟨_, s₇, h₇, h⟩ := run_bind_ok h
  have hs₇ := transformCypherLimit_readOnly _ _ _ _ _ h₇
  replace ⟨st, s₈, h₈, h⟩ := run_bind_ok h
  obtain ⟨-, hs₈⟩ := run_get_ok h₈
  replace ⟨_, s₉, h₉, h⟩ := run_bind_ok h
  have hs₉ := parseCheckAggregates_readOnly _ _ _ _ h₉
  obtain ⟨rfl, hs'⟩ := run_pure_ok h
  have hfin : s' = { s₃ with pNextResno := s'.pNextResno } := by
    rw [hs', hs₉, hs₈, hs₇, hs₆, hs₅]
    exact hs₄
  -- `DISTINCT` leaves the grouped entries as they are
  have hkeep : ∀ j ∈ idxs, tl₄[j]? = tl₃[j]? := fun j hj => by
    obtain ⟨te, hte, hne⟩ := hloop.grouped j hj
    rw [sortGroupSteps_getElem?_of_known hsteps hte hne
      (hloop.inv.known te (List.mem_iff_getElem?.2 ⟨j, hte⟩) hne), hte]
  have htc : s'.global.typeCache = s₃.global.typeCache := by rw [hfin]
  refine ⟨es, idxs, ?_, ?_, ?_, ?_⟩
  · exact (NamespaceReader.mapM transformCypherExpr_namespaceReader _ s' s₃ es s₃
      (by rw [hfin]) (by rw [hfin]) hes).2
  · rw [resolvePosition_congr (sortGroupSteps_map_key hsteps)]
    exact hloop.resolved
  · rw [groupedClauses_congr hkeep, htc]
    exact hloop.clauses
  · rw [hloop.clauses]
    exact groupedClauses_refs_nodup hloop.inv.distinct hloop.grouped

/-- `RETURN k, c ORDER BY k DESC`, where only `c` has an aggregate: `k` is grouped
by a copy of its sort clause. -/
theorem returnKeyOrderedDesc_groupedClauses :
    ∃ q s', (transformCypherReturn none ⟨false,
        [⟨none, .value ⟨1, agtypeOid, false, false, [], "k"⟩⟩, ⟨none, .value ⟨2, agtypeOid, true, false, [], "c"⟩⟩],
        [⟨.value ⟨1, agtypeOid, false, false, [], "k"⟩, .desc⟩], none, none⟩).run
        (rootParseState ⟨[], [(agtypeOid, ⟨1, 2, 3, true⟩)], [], [], 0⟩) = .ok (q, s') ∧
      ∃ es idxs, ((autoGroupList [⟨none, .value ⟨1, agtypeOid, false, false, [], "k"⟩⟩,
          ⟨none, .value ⟨2, agtypeOid, true, false, [], "c"⟩⟩]).mapM transformCypherExpr).run s' =
          .ok (es, s') ∧
        es.map (resolvePosition q.targetList) = idxs.map some ∧
        q.groupClause = groupedClauses s'.global.typeCache q.sortClause q.targetList idxs ∧
        (q.groupClause.map (·.tleSortGroupRef)).Nodup := by
  obtain ⟨q, s', h⟩ : ∃ q s', (transformCypherReturn none ⟨false,
      [⟨none, .value ⟨1, agtypeOid, false, false, [], "k"⟩⟩, ⟨none, .value ⟨2, agtypeOid, true, false, [], "c"⟩⟩],
      [⟨.value ⟨1, agtypeOid, false, false, [], "k"⟩, .desc⟩], none, none⟩).run
      (rootParseState ⟨[], [(agtypeOid, ⟨1, 2, 3, true⟩)], [], [], 0⟩) = .ok (q, s') := ⟨_, _, rfl⟩
  exact ⟨q, s', h, returnGroupClause_groupedClauses _ _ _ _ _ h⟩

/- The group clause is the `DESC` sort clause, nulls first included. -/
example : ((transformCypherReturn none ⟨false,
      [⟨none, .value ⟨1, agtypeOid, false, false, [], "k"⟩⟩, ⟨none, .value ⟨2, agtypeOid, true, false, [], "c"⟩⟩],
      [⟨.value ⟨1, agtypeOid, false, false, [], "k"⟩, .desc⟩], none, none⟩).run
      (rootParseState ⟨[], [(agtypeOid, ⟨1, 2, 3, true⟩)], [], [], 0⟩)).map (·.1.groupClause) =
    .ok [⟨1, 2, 3, true, true⟩] := rfl

end Return

end AgeCypher
