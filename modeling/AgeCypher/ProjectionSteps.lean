import Mathlib.Logic.Relation
import AgeCypher.Steps
/-!
# What the projection, sort, group and update transforms do to the target list

An item list appends one visible entry per item; a sort or group key that no
entry matches appends a junk entry; a sort reference and the coercion of an
unknown literal rewrite an entry in place. None of them allocates an entity, so
each is a `ClauseStep` for any registry predicate.

* `transformCypherItems_step`: the items' entries, visible, numbered on from the counter;
* `transformCypherOrderBy_step`, `transformGroupClause_step`: junk entries only;
* `transformDistinctClause_spec`: every entry keeps its shape;
* `transformCypherUpdateItemList_step`: `SET` appends its value column, `REMOVE`
  and `DELETE` keep the shape of every entry.
-/

namespace AgeCypher

/-- Writing back the element a position holds leaves a list as it is. -/
theorem set_self_of_getElem? {α : Type} {l : List α} {i : Nat} {a : α} (h : l[i]? = some a) :
    l.set i a = l := by
  apply List.ext_getElem?
  intro j
  rw [List.getElem?_set]
  by_cases hij : i = j
  · subst hij
    simp [h, (List.getElem?_eq_some_iff.1 h).1]
  · simp [hij]

/-- Rewriting an entry's expression or sort reference keeps the shape of the list. -/
theorem map_shape_set {tl : List TargetEntry} {i : Nat} {te te' : TargetEntry}
    (hte : tl[i]? = some te) (hs : te'.shape = te.shape) :
    (tl.set i te').map TargetEntry.shape = tl.map TargetEntry.shape := by
  rw [List.map_set, hs, set_self_of_getElem? (by simp [hte])]

theorem ClauseStep.of_shape {junk : Bool} {p : TransformEntity → Prop} {tl tl' : List TargetEntry}
    {s : CypherParseState} (h : tl'.map TargetEntry.shape = tl.map TargetEntry.shape) :
    ClauseStep junk p tl s tl' s :=
  ⟨.of_shape h rfl, .of_eq rfl rfl⟩

/-! ## Expressions and items -/

section Items

variable {junk : Bool} {p : TransformEntity → Prop} {tl : List TargetEntry}
  {s s' : CypherParseState}

theorem colNameToVar_readOnly (name : String) : ReadOnly (colNameToVar name) := by
  intro s a s' h
  rw [colNameToVar_run] at h
  cases hc : colNameToVarLevels name 0 (s.pNamespace :: s.parentNamespaces) with
  | error e => rw [hc] at h; cases h
  | ok v => rw [hc] at h; exact (Prod.mk.inj (Except.ok.inj h)).2.symm

theorem resolveVariable_readOnly (name : String) : ReadOnly (resolveVariable name) :=
  (colNameToVar_readOnly name).bind fun var => by cases var <;> first | exact .pure | exact .throw

theorem transformCypherExpr_readOnly : (node : CypherExpr) → ReadOnly (transformCypherExpr node)
  | .columnRef name => resolveVariable_readOnly name
  | .value _ => (ReadOnly.mapM fun x _ => resolveVariable_readOnly x).bind fun _ => .pure

/-- `transform_cypher_item` numbers its entry with the counter, and names it
after the expression when it is visible and has no alias. -/
theorem transformCypherItem_spec {node : CypherExpr} {expr : Option Expr}
    {colname : Option String} {resjunk : Bool} {te : TargetEntry}
    (h : (transformCypherItem node expr colname resjunk).run s = .ok (te, s')) :
    te.resno = s.pNextResno ∧ te.resjunk = resjunk ∧
      te.resname = (if colname.isNone && !resjunk then some node.figureColname else colname) ∧
      s' = { s with pNextResno := s.pNextResno + 1 } := by
  obtain ⟨e, s₁, h₁, hrest⟩ := run_bind_ok h
  have hs₁ : s₁ = s := by
    cases expr with
    | some e => exact (run_pure_ok h₁).2
    | none => exact transformCypherExpr_readOnly node _ _ _ h₁
  subst hs₁
  obtain ⟨resno, s₂, h₂, h₃⟩ := run_bind_ok hrest
  rw [nextResno_run] at h₂
  obtain ⟨rfl, rfl⟩ := Prod.mk.inj (Except.ok.inj h₂)
  obtain ⟨rfl, rfl⟩ := run_pure_ok h₃
  exact ⟨rfl, rfl, rfl, rfl⟩

/-- The entry of an item follows the list. -/
theorem transformCypherItem_step {node : CypherExpr} {expr : Option Expr}
    {colname : Option String} {resjunk : Bool} {te : TargetEntry}
    (h : (transformCypherItem node expr colname resjunk).run s = .ok (te, s')) :
    ClauseStep resjunk p tl s (tl ++ [te]) s' := by
  obtain ⟨hno, hjunk, hname, rfl⟩ := transformCypherItem_spec h
  refine ⟨.single hno hjunk (fun hv => ?_) rfl, .of_eq rfl rfl⟩
  rw [hname]
  cases colname <;> simp_all

/-- The items' entries follow the list, visible and numbered on. -/
theorem transformCypherItems_step {items : List ResTarget}
    {r : List TargetEntry × List CypherExpr × Bool}
    (h : (transformCypherItems items).run s = .ok (r, s')) :
    ClauseStep false p tl s (tl ++ r.1) s' := by
  induction items generalizing tl s r with
  | nil =>
    obtain ⟨rfl, rfl⟩ := run_pure_ok h
    simpa using ClauseStep.of_same (.refl _)
  | cons item items ih =>
    replace ⟨te, s₁, h₁, h⟩ := run_bind_ok h
    replace ⟨⟨tes, group, hasAgg⟩, s₂, h₂, h⟩ := run_bind_ok h
    obtain ⟨rfl, rfl⟩ := run_pure_ok h
    have hrest : ClauseStep false p (tl ++ [te]) s₁ (tl ++ [te] ++ tes) s' := ih h₂
    rw [List.append_assoc, List.singleton_append] at hrest
    exact (transformCypherItem_step h₁).trans hrest

theorem transformCypherItemList_step {items : List ResTarget}
    {r : List TargetEntry × List CypherExpr}
    (h : (transformCypherItemList items).run s = .ok (r, s')) :
    ClauseStep false p [] s r.1 s' := by
  replace ⟨⟨tes, group, hasAgg⟩, s₁, h₁, h⟩ := run_bind_ok h
  obtain ⟨rfl, rfl⟩ := run_pure_ok h
  have hitems : ClauseStep false p [] _ ([] ++ tes) _ := transformCypherItems_step h₁
  simpa using hitems

/-- A key is found among the entries, or appended as a junk entry. -/
theorem findTargetListEntry_step {node : CypherExpr} {r : Nat × List TargetEntry}
    (h : (findTargetListEntry node tl).run s = .ok (r, s')) : ClauseStep true p tl s r.2 s' := by
  replace ⟨e, s₁, h₁, h⟩ := run_bind_ok h
  cases transformCypherExpr_readOnly _ _ _ _ h₁
  split at h
  · obtain ⟨rfl, rfl⟩ := run_pure_ok h
    exact .of_same (.refl _)
  · replace ⟨te, s₂, h₂, h⟩ := run_bind_ok h
    obtain ⟨rfl, rfl⟩ := run_pure_ok h
    exact transformCypherItem_step h₂

theorem coerceToSpecificType_readOnly (node : Expr) (targetType : Nat) (constructName : String) :
    ReadOnly (coerceToSpecificType node targetType constructName) :=
  ReadOnly.get.bind fun _ => (ReadOnly.ite .pure (.ite .pure .throw)).bind fun _ => .ite .throw .pure

theorem parseCheckAggregates_readOnly (query : Query) : ReadOnly (parseCheckAggregates query) := by
  unfold parseCheckAggregates
  split
  · dsimp only
    split
    · exact .throw
    · exact .pure
  · exact .pure

theorem transformCypherLimit_readOnly (node : Option CypherExpr) (constructName : String) :
    ReadOnly (transformCypherLimit node constructName) := by
  cases node with
  | none => exact .pure
  | some node =>
    exact (transformCypherExpr_readOnly node).bind fun _ =>
      (coerceToSpecificType_readOnly _ _ _).bind fun _ => .ite .throw .pure

end Items

/-! ## Sort and group clauses

A sort or a group clause for an entry coerces it from `UNKNOWN` to `TEXT` and
gives it a reference past every other unless it has one (`SortGroupStep`);
nothing else in the list changes. -/

section SortGroup

variable {junk : Bool} {p : TransformEntity → Prop} {tl : List TargetEntry}
  {s s' : CypherParseState} {te : TargetEntry} {i : Nat}

theorem entryAt_spec (h : (entryAt tl i).run s = .ok (te, s')) : tl[i]? = some te ∧ s' = s := by
  unfold entryAt at h
  split at h
  · obtain ⟨rfl, rfl⟩ := run_pure_ok h
    exact ⟨‹_›, rfl⟩
  · simp at h

/-- What `find_target_list_entry` compares: the expression, implicit coercions
stripped. -/
def TargetEntry.key (te : TargetEntry) : Expr := te.expr.stripImplicitCoercions

/-- The entry `coerceUnknownToText` leaves: an `UNKNOWN` literal coerced to `TEXT`. -/
def TargetEntry.coerceUnknown (te : TargetEntry) : TargetEntry :=
  if te.expr.type == unknownOid then { te with expr := .implicitCoercion te.expr textOid } else te

/-- The entry `assignSortGroupRef` leaves: its own reference, else `ref`. -/
def TargetEntry.withSortGroupRef (te : TargetEntry) (ref : Nat) : TargetEntry :=
  if te.ressortgroupref != 0 then te else { te with ressortgroupref := ref }

/-- The entry a sort or group clause for `te` leaves at its position in `tl`. -/
def TargetEntry.sortGroupEntry (te : TargetEntry) (tl : List TargetEntry) : TargetEntry :=
  te.coerceUnknown.withSortGroupRef (maxSortGroupRef tl + 1)

namespace TargetEntry

@[simp] theorem coerceUnknown_shape : te.coerceUnknown.shape = te.shape := by
  unfold coerceUnknown; split <;> rfl

@[simp] theorem coerceUnknown_ref : te.coerceUnknown.ressortgroupref = te.ressortgroupref := by
  unfold coerceUnknown; split <;> rfl

@[simp] theorem coerceUnknown_key : te.coerceUnknown.key = te.key := by
  unfold coerceUnknown; split <;> rfl

theorem coerceUnknown_type_ne : te.coerceUnknown.expr.type ≠ unknownOid := by
  unfold coerceUnknown
  split
  · exact (by decide : textOid ≠ unknownOid)
  · rename_i hc
    simpa using hc

theorem coerceUnknown_of_known (h : te.expr.type ≠ unknownOid) : te.coerceUnknown = te := by
  simp [coerceUnknown, h]

@[simp] theorem withSortGroupRef_expr {ref : Nat} : (te.withSortGroupRef ref).expr = te.expr := by
  unfold withSortGroupRef; split <;> rfl

@[simp] theorem withSortGroupRef_shape {ref : Nat} : (te.withSortGroupRef ref).shape = te.shape := by
  unfold withSortGroupRef; split <;> rfl

@[simp] theorem withSortGroupRef_key {ref : Nat} : (te.withSortGroupRef ref).key = te.key := by
  simp [key]

@[simp] theorem withSortGroupRef_ref {ref : Nat} :
    (te.withSortGroupRef ref).ressortgroupref =
      if te.ressortgroupref = 0 then ref else te.ressortgroupref := by
  unfold withSortGroupRef; split <;> simp_all

theorem withSortGroupRef_of_ne {ref : Nat} (h : te.ressortgroupref ≠ 0) :
    te.withSortGroupRef ref = te := by
  simp [withSortGroupRef, h]

@[simp] theorem sortGroupEntry_shape : (te.sortGroupEntry tl).shape = te.shape := by
  simp [sortGroupEntry]

@[simp] theorem sortGroupEntry_key : (te.sortGroupEntry tl).key = te.key := by
  simp [sortGroupEntry]

@[simp] theorem sortGroupEntry_ref :
    (te.sortGroupEntry tl).ressortgroupref =
      if te.ressortgroupref = 0 then maxSortGroupRef tl + 1 else te.ressortgroupref := by
  simp [sortGroupEntry]

theorem sortGroupEntry_type_ne : (te.sortGroupEntry tl).expr.type ≠ unknownOid := by
  simpa [sortGroupEntry] using coerceUnknown_type_ne

/-- An entry with a reference and a known type is left as it is. -/
theorem sortGroupEntry_of_known (href : te.ressortgroupref ≠ 0) (htype : te.expr.type ≠ unknownOid) :
    te.sortGroupEntry tl = te := by
  rw [sortGroupEntry, coerceUnknown_of_known htype, withSortGroupRef_of_ne href]

end TargetEntry

theorem maxSortGroupRef_eq (tl : List TargetEntry) :
    maxSortGroupRef tl = (tl.map (·.ressortgroupref)).foldr Nat.max 0 := by
  rw [List.foldr_map]
  rfl

/-- Rewriting an entry with the same reference keeps the largest reference. -/
theorem maxSortGroupRef_set {te' : TargetEntry} (hte : tl[i]? = some te)
    (href : te'.ressortgroupref = te.ressortgroupref) :
    maxSortGroupRef (tl.set i te') = maxSortGroupRef tl := by
  rw [maxSortGroupRef_eq, maxSortGroupRef_eq, List.map_set, href,
    set_self_of_getElem? (by simp [hte])]

/-- The operators the type cache holds for a type, none when it has no entry. -/
def typeOperators (typeCache : List (Nat × TypeCacheEntry)) (type : Nat) : TypeCacheEntry :=
  (typeCache.lookup type).getD ⟨0, 0, 0, false⟩

/-- The group clause `add_target_to_group_list` makes for an entry: the default
equality and sort operators of its type, nulls last. -/
def defaultGroupClause (typeCache : List (Nat × TypeCacheEntry)) (te : TargetEntry) :
    SortGroupClause :=
  let ops := typeOperators typeCache te.expr.type
  ⟨te.ressortgroupref, ops.eqOpr, ops.ltOpr, false, ops.hashable⟩

theorem getSortGroupOperators_spec {type : Nat} {lt eq gt : Bool} {ops : TypeCacheEntry}
    (h : (getSortGroupOperators type lt eq gt).run s = .ok (ops, s')) :
    ops = typeOperators s.global.typeCache type ∧ s' = s := by
  replace ⟨st, s₁, h₁, h⟩ := run_bind_ok h
  obtain ⟨rfl, rfl⟩ := run_get_ok h₁
  dsimp only at h
  split at h
  · cases h
  · split at h
    · cases h
    · obtain ⟨rfl, rfl⟩ := run_pure_ok h
      exact ⟨rfl, rfl⟩

theorem targetIsInSortList_ref {commutators : List (Nat × Nat)} {sortop : Nat}
    {sortList : List SortGroupClause} (h : targetIsInSortList commutators te sortop sortList = true) :
    te.ressortgroupref ≠ 0 := by
  simp only [targetIsInSortList, Bool.and_eq_true, bne_iff_ne] at h
  exact h.1

/-- An entry in the sort list has its reference on a clause of the list. -/
theorem targetIsInSortList_mem {commutators : List (Nat × Nat)} {sortop : Nat}
    {sortList : List SortGroupClause} (h : targetIsInSortList commutators te sortop sortList = true) :
    te.ressortgroupref ∈ sortList.map (·.tleSortGroupRef) := by
  simp only [targetIsInSortList, Bool.and_eq_true, List.any_eq_true, beq_iff_eq] at h
  obtain ⟨-, c, hc, href, -⟩ := h
  exact List.mem_map.2 ⟨c, hc, href⟩

/-- `targetIsInSortList` with no operator: a clause of the list has the entry's
nonzero reference. -/
theorem targetIsInSortList_zero {commutators : List (Nat × Nat)} {sortList : List SortGroupClause} :
    targetIsInSortList commutators te 0 sortList = true ↔
      te.ressortgroupref ≠ 0 ∧ te.ressortgroupref ∈ sortList.map (·.tleSortGroupRef) := by
  simp [targetIsInSortList]

theorem coerceUnknownToText_spec {tl' : List TargetEntry} {restype : Nat}
    (h : (coerceUnknownToText tl i).run s = .ok ((tl', restype), s')) :
    ∃ te, tl[i]? = some te ∧ tl' = tl.set i te.coerceUnknown ∧
      restype = te.coerceUnknown.expr.type ∧ s' = s := by
  replace ⟨te, s₁, h₁, h⟩ := run_bind_ok h
  obtain ⟨hte, rfl⟩ := entryAt_spec h₁
  refine ⟨te, hte, ?_⟩
  split at h
  · rename_i hc
    obtain ⟨⟨⟩, rfl⟩ := run_pure_ok h
    rw [TargetEntry.coerceUnknown, if_pos hc]
    exact ⟨rfl, rfl, rfl⟩
  · rename_i hc
    obtain ⟨⟨⟩, rfl⟩ := run_pure_ok h
    rw [TargetEntry.coerceUnknown, if_neg hc, set_self_of_getElem? hte]
    exact ⟨rfl, rfl, rfl⟩

theorem assignSortGroupRef_spec {ref : Nat} {tl' : List TargetEntry}
    (h : (assignSortGroupRef tl i).run s = .ok ((ref, tl'), s')) :
    ∃ te, tl[i]? = some te ∧ tl' = tl.set i (te.withSortGroupRef (maxSortGroupRef tl + 1)) ∧
      ref = (te.withSortGroupRef (maxSortGroupRef tl + 1)).ressortgroupref ∧ s' = s := by
  replace ⟨te, s₁, h₁, h⟩ := run_bind_ok h
  obtain ⟨hte, rfl⟩ := entryAt_spec h₁
  refine ⟨te, hte, ?_⟩
  split at h
  · rename_i hne
    obtain ⟨⟨⟩, rfl⟩ := run_pure_ok h
    rw [TargetEntry.withSortGroupRef_of_ne (by simpa using hne), set_self_of_getElem? hte]
    exact ⟨rfl, rfl, rfl⟩
  · rename_i hzero
    obtain ⟨⟨⟩, rfl⟩ := run_pure_ok h
    have hz : te.ressortgroupref = 0 := by simpa using hzero
    exact ⟨by simp [TargetEntry.withSortGroupRef, hz], by simp [hz], rfl⟩

/-- The sort clause of an `ORDER BY` key: the entry is coerced and given a
reference, and a clause with that reference is appended unless one with the same
operator is there. -/
theorem addTargetToSortList_spec {sortList sortList' : List SortGroupClause} {sortBy : SortBy}
    {tl' : List TargetEntry}
    (h : (addTargetToSortList tl i sortList sortBy).run s = .ok ((sortList', tl'), s')) :
    ∃ te, tl[i]? = some te ∧ tl' = tl.set i (te.sortGroupEntry tl) ∧
      (sortList' = sortList ∧
          (te.sortGroupEntry tl).ressortgroupref ∈ sortList.map (·.tleSortGroupRef) ∨
        ∃ c, sortList' = sortList ++ [c] ∧
          c.tleSortGroupRef = (te.sortGroupEntry tl).ressortgroupref ∧
          c.nullsFirst = (sortBy.dir == .desc)) ∧ s' = s := by
  replace ⟨⟨tl₁, restype⟩, s₁, h₁, h⟩ := run_bind_ok h
  obtain ⟨te, hte, rfl, rfl, rfl⟩ := coerceUnknownToText_spec h₁
  refine ⟨te, hte, ?_⟩
  have hte₁ : (tl.set i te.coerceUnknown)[i]? = some te.coerceUnknown :=
    List.getElem?_set_self (List.getElem?_eq_some_iff.1 hte).1
  have hmax : maxSortGroupRef (tl.set i te.coerceUnknown) = maxSortGroupRef tl :=
    maxSortGroupRef_set hte TargetEntry.coerceUnknown_ref
  replace ⟨ops, s₂, h₂, h⟩ := run_bind_ok h
  obtain ⟨-, rfl⟩ := getSortGroupOperators_spec h₂
  replace ⟨te₁, s₃, h₃, h⟩ := run_bind_ok h
  obtain ⟨hte₃, rfl⟩ := entryAt_spec h₃
  obtain rfl := Option.some.inj (hte₁.symm.trans hte₃)
  replace ⟨st, s₄, h₄, h⟩ := run_bind_ok h
  obtain ⟨rfl, rfl⟩ := run_get_ok h₄
  split at h
  · rename_i hin
    obtain ⟨⟨⟩, rfl⟩ := run_pure_ok h
    have hentry : te.sortGroupEntry tl = te.coerceUnknown := by
      rw [TargetEntry.sortGroupEntry,
        TargetEntry.withSortGroupRef_of_ne (targetIsInSortList_ref hin)]
    exact ⟨by rw [hentry], .inl ⟨rfl, hentry ▸ targetIsInSortList_mem hin⟩, rfl⟩
  · replace ⟨⟨ref, tl₂⟩, s₅, h₅, h⟩ := run_bind_ok h
    obtain ⟨te₂, hte₂, rfl, rfl, rfl⟩ := assignSortGroupRef_spec h₅
    obtain rfl := Option.some.inj (hte₁.symm.trans hte₂)
    obtain ⟨⟨⟩, rfl⟩ := run_pure_ok h
    exact ⟨by rw [List.set_set, hmax, TargetEntry.sortGroupEntry], .inr ⟨_, rfl,
      by simp only [hmax, TargetEntry.sortGroupEntry], rfl⟩, rfl⟩

/-- The group clause of an entry: the entry is coerced and given a reference, and
unless a clause of the list has its reference, the default clause is appended. -/
theorem addTargetToGroupList_spec {groupList groupList' : List SortGroupClause}
    {tl' : List TargetEntry}
    (h : (addTargetToGroupList tl i groupList).run s = .ok ((groupList', tl'), s')) :
    ∃ te, tl[i]? = some te ∧ tl' = tl.set i (te.sortGroupEntry tl) ∧
      (te.ressortgroupref ≠ 0 ∧ te.ressortgroupref ∈ groupList.map (·.tleSortGroupRef) ∧
          groupList' = groupList ∨
        ¬(te.ressortgroupref ≠ 0 ∧ te.ressortgroupref ∈ groupList.map (·.tleSortGroupRef)) ∧
          groupList' = groupList ++ [defaultGroupClause s.global.typeCache (te.sortGroupEntry tl)]) ∧
      s' = s := by
  replace ⟨⟨tl₁, restype⟩, s₁, h₁, h⟩ := run_bind_ok h
  obtain ⟨te, hte, rfl, rfl, rfl⟩ := coerceUnknownToText_spec h₁
  refine ⟨te, hte, ?_⟩
  have hte₁ : (tl.set i te.coerceUnknown)[i]? = some te.coerceUnknown :=
    List.getElem?_set_self (List.getElem?_eq_some_iff.1 hte).1
  have hmax : maxSortGroupRef (tl.set i te.coerceUnknown) = maxSortGroupRef tl :=
    maxSortGroupRef_set hte TargetEntry.coerceUnknown_ref
  replace ⟨te₁, s₂, h₂, h⟩ := run_bind_ok h
  obtain ⟨hte₂, rfl⟩ := entryAt_spec h₂
  obtain rfl := Option.some.inj (hte₁.symm.trans hte₂)
  replace ⟨st, s₃, h₃, h⟩ := run_bind_ok h
  obtain ⟨rfl, rfl⟩ := run_get_ok h₃
  split at h
  · rename_i hin
    obtain ⟨⟨⟩, rfl⟩ := run_pure_ok h
    have hin' := targetIsInSortList_zero.1 hin
    rw [TargetEntry.coerceUnknown_ref] at hin'
    exact ⟨by rw [TargetEntry.sortGroupEntry,
      TargetEntry.withSortGroupRef_of_ne (targetIsInSortList_ref hin)], .inl ⟨hin'.1, hin'.2, rfl⟩, rfl⟩
  · rename_i hnot
    replace ⟨ops, s₄, h₄, h⟩ := run_bind_ok h
    obtain ⟨rfl, rfl⟩ := getSortGroupOperators_spec h₄
    replace ⟨⟨ref, tl₂⟩, s₅, h₅, h⟩ := run_bind_ok h
    obtain ⟨te₂, hte₂, rfl, rfl, rfl⟩ := assignSortGroupRef_spec h₅
    obtain rfl := Option.some.inj (hte₁.symm.trans hte₂)
    obtain ⟨⟨⟩, rfl⟩ := run_pure_ok h
    refine ⟨by rw [List.set_set, hmax, TargetEntry.sortGroupEntry], .inr ⟨?_, ?_⟩, rfl⟩
    · simpa [targetIsInSortList_zero] using hnot
    · simp only [hmax, defaultGroupClause, TargetEntry.sortGroupEntry,
        TargetEntry.withSortGroupRef_expr]

/-- One sort or group clause made for the entry at some position. -/
def SortGroupStep (tl tl' : List TargetEntry) : Prop :=
  ∃ i te, tl[i]? = some te ∧ tl' = tl.set i (te.sortGroupEntry tl)

theorem SortGroupStep.map_shape {tl' : List TargetEntry} (h : SortGroupStep tl tl') :
    tl'.map TargetEntry.shape = tl.map TargetEntry.shape := by
  obtain ⟨i, te, hte, rfl⟩ := h
  exact map_shape_set hte TargetEntry.sortGroupEntry_shape

theorem sortGroupSteps_map_shape {tl' : List TargetEntry}
    (h : Relation.ReflTransGen SortGroupStep tl tl') :
    tl'.map TargetEntry.shape = tl.map TargetEntry.shape := by
  induction h with
  | refl => rfl
  | tail _ hstep ih => exact hstep.map_shape.trans ih

/-- `ORDER BY` appends junk entries only. -/
theorem transformCypherOrderBy_step {sortItems : List SortBy} {sortList : List SortGroupClause}
    {r : List SortGroupClause × List TargetEntry}
    (h : (transformCypherOrderBy sortItems sortList tl).run s = .ok (r, s')) :
    ClauseStep true p tl s r.2 s' := by
  induction sortItems generalizing sortList tl s with
  | nil =>
    obtain ⟨rfl, rfl⟩ := run_pure_ok h
    exact .of_same (.refl _)
  | cons sortBy sortItems ih =>
    replace ⟨⟨i, tl₁⟩, s₁, h₁, h⟩ := run_bind_ok h
    replace ⟨⟨sl, tl₂⟩, s₂, h₂, h⟩ := run_bind_ok h
    obtain ⟨te, hte, rfl, -, rfl⟩ := addTargetToSortList_spec h₂
    exact (findTargetListEntry_step h₁).trans
      ((ClauseStep.of_shape (map_shape_set hte TargetEntry.sortGroupEntry_shape)).trans (ih h))

theorem transformGroupClauseExpr_step {flatresult : List SortGroupClause} {seenLocal : List Nat}
    {gexpr : CypherExpr} {sortClause : List SortGroupClause} {toplevel : Bool}
    {r : Nat × List SortGroupClause × List TargetEntry}
    (h : (transformGroupClauseExpr flatresult seenLocal gexpr tl sortClause toplevel).run s =
      .ok (r, s')) :
    ClauseStep true p tl s r.2.2 s' := by
  replace ⟨⟨i, tl₁⟩, s₁, h₁, h⟩ := run_bind_ok h
  have hfind := findTargetListEntry_step (p := p) h₁
  replace ⟨te, s₂, h₂, h⟩ := run_bind_ok h
  obtain ⟨-, rfl⟩ := entryAt_spec h₂
  replace ⟨st, s₃, h₃, h⟩ := run_bind_ok h
  cases ReadOnly.get _ _ _ h₃
  -- the default group clause keeps every shape
  have hdefault : ∀ {r t}, (do
      let (flatresult, targetList) ← addTargetToGroupList tl₁ i flatresult
      let tle ← entryAt targetList i
      pure (tle.ressortgroupref, flatresult, targetList) :
        TransformM (Nat × List SortGroupClause × List TargetEntry)).run t = .ok (r, s') →
      ClauseStep true p tl₁ t r.2.2 s' := by
    intro r t h
    replace ⟨⟨fl, tl₂⟩, t₁, h₁, h⟩ := run_bind_ok h
    obtain ⟨te, hte, rfl, -, rfl⟩ := addTargetToGroupList_spec h₁
    replace ⟨te', t₂, h₂, h⟩ := run_bind_ok h
    obtain ⟨-, rfl⟩ := entryAt_spec h₂
    obtain ⟨rfl, rfl⟩ := run_pure_ok h
    exact .of_shape (map_shape_set hte TargetEntry.sortGroupEntry_shape)
  dsimp only at h
  split at h
  · split at h
    · obtain ⟨rfl, rfl⟩ := run_pure_ok h
      exact hfind
    · split at h
      · obtain ⟨rfl, rfl⟩ := run_pure_ok h
        exact hfind
      · split at h
        · obtain ⟨rfl, rfl⟩ := run_pure_ok h
          exact hfind
        · exact hfind.trans (hdefault h)
  · exact hfind.trans (hdefault h)

theorem transformGroupClauseLoop_step {sortClause : List SortGroupClause} {grouplist : List CypherExpr}
    {result : List SortGroupClause} {seenLocal : List Nat} {r : List SortGroupClause × List TargetEntry}
    (h : (transformGroupClauseLoop sortClause grouplist result seenLocal tl).run s = .ok (r, s')) :
    ClauseStep true p tl s r.2 s' := by
  induction grouplist generalizing result seenLocal tl s with
  | nil =>
    obtain ⟨rfl, rfl⟩ := run_pure_ok h
    exact .of_same (.refl _)
  | cons gexpr grouplist ih =>
    replace ⟨⟨ref, result₁, tl₁⟩, s₁, h₁, h⟩ := run_bind_ok h
    exact (transformGroupClauseExpr_step h₁).trans (ih h)

/-- The auto `GROUP BY` appends junk entries only. -/
theorem transformGroupClause_step {grouplist : List CypherExpr} {sortClause : List SortGroupClause}
    {r : List SortGroupClause × List TargetEntry}
    (h : (transformGroupClause grouplist tl sortClause).run s = .ok (r, s')) :
    ClauseStep true p tl s r.2 s' :=
  transformGroupClauseLoop_step h

theorem checkDistinctSortKeys_readOnly (tl : List TargetEntry) :
    (sortClause : List SortGroupClause) → ReadOnly (checkDistinctSortKeys tl sortClause)
  | [] => .pure
  | scl :: sortClause => by
    unfold checkDistinctSortKeys
    split
    · exact .throw
    · exact .ite .throw (checkDistinctSortKeys_readOnly tl sortClause)

/-- The `DISTINCT` columns: a group clause for each visible entry in turn. -/
theorem addDistinctColumns_steps {groupList : List SortGroupClause} {n i : Nat}
    {r : List SortGroupClause × List TargetEntry}
    (h : (addDistinctColumns groupList tl n i).run s = .ok (r, s')) :
    Relation.ReflTransGen SortGroupStep tl r.2 ∧ s' = s := by
  induction n generalizing groupList tl i s with
  | zero =>
    obtain ⟨rfl, rfl⟩ := run_pure_ok h
    exact ⟨.refl, rfl⟩
  | succ n ih =>
    replace ⟨te, s₁, h₁, h⟩ := run_bind_ok h
    obtain ⟨-, rfl⟩ := entryAt_spec h₁
    replace ⟨⟨gl, tl₁⟩, s₂, h₂, h⟩ := run_bind_ok h
    have hstep : Relation.ReflTransGen SortGroupStep tl tl₁ ∧ s₂ = s₁ := by
      split at h₂
      · obtain ⟨⟨⟩, rfl⟩ := run_pure_ok h₂
        exact ⟨.refl, rfl⟩
      · obtain ⟨te', hte', rfl, -, rfl⟩ := addTargetToGroupList_spec h₂
        exact ⟨.single ⟨_, te', hte', rfl⟩, rfl⟩
    obtain ⟨hsteps, rfl⟩ := hstep
    obtain ⟨hsteps₂, rfl⟩ := ih h
    exact ⟨hsteps.trans hsteps₂, rfl⟩

/-- `DISTINCT` only makes group clauses for entries. -/
theorem transformDistinctClause_steps {sortClause : List SortGroupClause}
    {r : List SortGroupClause × List TargetEntry}
    (h : (transformDistinctClause tl sortClause).run s = .ok (r, s')) :
    Relation.ReflTransGen SortGroupStep tl r.2 ∧ s' = s := by
  replace ⟨u, s₁, h₁, h⟩ := run_bind_ok h
  cases checkDistinctSortKeys_readOnly _ _ _ _ _ h₁
  replace ⟨⟨result, tl₁⟩, s₂, h₂, h⟩ := run_bind_ok h
  obtain ⟨hsteps, rfl⟩ := addDistinctColumns_steps h₂
  dsimp only at h
  split at h
  · simp at h
  · obtain ⟨rfl, rfl⟩ := run_pure_ok h
    exact ⟨hsteps, rfl⟩

/-- `DISTINCT` keeps the shape of every entry. -/
theorem transformDistinctClause_spec {sortClause : List SortGroupClause}
    {r : List SortGroupClause × List TargetEntry}
    (h : (transformDistinctClause tl sortClause).run s = .ok (r, s')) :
    r.2.map TargetEntry.shape = tl.map TargetEntry.shape ∧ s' = s :=
  ⟨sortGroupSteps_map_shape (transformDistinctClause_steps h).1, (transformDistinctClause_steps h).2⟩

end SortGroup

/-! ## `SET`, `REMOVE` and `DELETE` items -/

section Update

variable {p : TransformEntity → Prop} {tl : List TargetEntry} {s s' : CypherParseState}

/-- `get_target_entry_resno` rewrites an expression, never a number, name or junk
flag. -/
theorem getTargetEntryResno_shape (tl : List TargetEntry) (name : String) :
    (getTargetEntryResno tl name).2.map TargetEntry.shape = tl.map TargetEntry.shape := by
  induction tl with
  | nil => rfl
  | cons te tl ih =>
    by_cases hte : te.resname = some name <;> simp [getTargetEntryResno, hte, ih, TargetEntry.shape]

/-- The resno `get_target_entry_resno` finds depends on the shapes of the entries only. -/
theorem getTargetEntryResno_fst_of_shape {tl' : List TargetEntry} (name : String)
    (h : tl'.map TargetEntry.shape = tl.map TargetEntry.shape) :
    (getTargetEntryResno tl' name).1 = (getTargetEntryResno tl name).1 := by
  induction tl generalizing tl' with
  | nil => rw [List.map_eq_nil_iff.1 h]
  | cons te tl ih =>
    obtain ⟨te', tl'', rfl, hte, htl⟩ := List.map_eq_cons_iff.1 h
    have hrest := ih htl
    simp only [TargetEntry.shape, Prod.mk.injEq] at hte
    simp only [getTargetEntryResno_fst, List.find?_cons, hte.2.1] at hrest ⊢
    split <;> simp_all

theorem transformCypherRemoveItem_spec {setItem : CypherSetItem} {u : CypherUpdateItem}
    {tl' : List TargetEntry} (h : (transformCypherRemoveItem tl setItem).run s = .ok ((u, tl'), s')) :
    u.entityPosition = (getTargetEntryResno tl u.varName).1 ∧ u.entityPosition ≠ -1 ∧
      u.removeItem = true ∧ tl' = (getTargetEntryResno tl u.varName).2 ∧ s' = s := by
  unfold transformCypherRemoveItem at h
  dsimp only at h
  repeat' split at h
  -- every other path raises an error
  all_goals try simp only [ereport_run, crash_run, reduceCtorEq] at h
  obtain ⟨⟨⟩, rfl⟩ := run_pure_ok h
  exact ⟨rfl, ne_of_beq_false (Bool.eq_false_iff.2 ‹_›), rfl, rfl, rfl⟩

/-- A `SET` item reads its variable from the first column of its name and
appends its value column, whose number it records. -/
theorem transformCypherSetItem_spec {setItem : CypherSetItem} {u : CypherUpdateItem}
    {tl' : List TargetEntry} (h : (transformCypherSetItem tl setItem).run s = .ok ((u, tl'), s')) :
    u.entityPosition = (getTargetEntryResno tl u.varName).1 ∧ u.entityPosition ≠ -1 ∧
      u.removeItem = false ∧ u.propPosition = s.pNextResno ∧
      ∃ te : TargetEntry, te.resno = s.pNextResno ∧ te.resjunk = false ∧ te.resname.isSome ∧
        (∃ v, te.expr = .volatileWrapper v) ∧ tl' = (getTargetEntryResno tl u.varName).2 ++ [te] ∧
        s' = { s with pNextResno := s.pNextResno + 1 } := by
  unfold transformCypherSetItem at h
  dsimp only at h
  repeat' split at h
  -- every other path raises an error
  all_goals try simp only [ereport_run, crash_run, reduceCtorEq] at h
  replace ⟨st, s₁, h₁, h⟩ := run_bind_ok h
  obtain ⟨rfl, rfl⟩ := run_get_ok h₁
  replace ⟨te, s₂, h₂, h⟩ := run_bind_ok h
  obtain ⟨hno, hjunk, hname, rfl⟩ := transformCypherItem_spec h₂
  obtain ⟨⟨⟩, rfl⟩ := run_pure_ok h
  exact ⟨rfl, ne_of_beq_false (Bool.eq_false_iff.2 ‹_›), rfl, rfl,
    { te with expr := .volatileWrapper te.expr }, hno, hjunk, by simp [hname], ⟨_, rfl⟩, rfl, rfl⟩

theorem transformCypherDeleteItem_spec {expr : DeleteExpr} {u : CypherDeleteItem}
    {tl' : List TargetEntry} (h : (transformCypherDeleteItem tl expr).run s = .ok ((u, tl'), s')) :
    u.entityPosition = (getTargetEntryResno tl u.varName).1 ∧ u.entityPosition ≠ -1 ∧
      tl' = (getTargetEntryResno tl u.varName).2 ∧ s' = s := by
  unfold transformCypherDeleteItem at h
  dsimp only at h
  repeat' split at h
  -- every other path raises an error
  all_goals try simp only [ereport_run, crash_run, reduceCtorEq] at h
  obtain ⟨⟨⟩, rfl⟩ := run_pure_ok h
  exact ⟨rfl, ne_of_beq_false (Bool.eq_false_iff.2 ‹_›), rfl, rfl⟩

/-- Every `REMOVE` item reads the first column of its variable's name among the
columns the list started with. -/
theorem transformCypherRemoveItemList_spec {setItems : List CypherSetItem}
    {r : List CypherUpdateItem × List TargetEntry}
    (h : (transformCypherUpdateItemList transformCypherRemoveItem setItems tl).run s = .ok (r, s')) :
    r.2.map TargetEntry.shape = tl.map TargetEntry.shape ∧ s' = s ∧
      ∀ u ∈ r.1, u.entityPosition = (getTargetEntryResno tl u.varName).1 ∧ u.entityPosition ≠ -1 ∧
        u.removeItem = true := by
  induction setItems generalizing tl s r s' with
  | nil =>
    obtain ⟨rfl, rfl⟩ := run_pure_ok h
    exact ⟨rfl, rfl, fun _ hu => nomatch hu⟩
  | cons setItem setItems ih =>
    replace ⟨⟨u, tl₁⟩, s₁, h₁, h⟩ := run_bind_ok h
    replace ⟨⟨us, tl₂⟩, s₂, h₂, h⟩ := run_bind_ok h
    obtain ⟨hshape, rfl, hitems⟩ := ih h₂
    obtain ⟨rfl, rfl⟩ := run_pure_ok h
    obtain ⟨hpos, hne, hremove, rfl, rfl⟩ := transformCypherRemoveItem_spec h₁
    have hshape₁ := getTargetEntryResno_shape tl u.varName
    refine ⟨hshape.trans hshape₁, rfl, ?_⟩
    rintro v (_ | ⟨_, hv⟩)
    · exact ⟨hpos, hne, hremove⟩
    · rw [← getTargetEntryResno_fst_of_shape v.varName hshape₁]
      exact hitems v hv

/-- Every `DELETE` item reads the first column of its variable's name among the
columns the list started with. -/
theorem transformCypherDeleteItemList_spec {exprs : List DeleteExpr}
    {r : List CypherDeleteItem × List TargetEntry}
    (h : (transformCypherDeleteItemList exprs tl).run s = .ok (r, s')) :
    r.2.map TargetEntry.shape = tl.map TargetEntry.shape ∧ s' = s ∧
      ∀ u ∈ r.1, u.entityPosition = (getTargetEntryResno tl u.varName).1 ∧ u.entityPosition ≠ -1 := by
  induction exprs generalizing tl s r s' with
  | nil =>
    obtain ⟨rfl, rfl⟩ := run_pure_ok h
    exact ⟨rfl, rfl, fun _ hu => nomatch hu⟩
  | cons expr exprs ih =>
    replace ⟨⟨u, tl₁⟩, s₁, h₁, h⟩ := run_bind_ok h
    replace ⟨⟨us, tl₂⟩, s₂, h₂, h⟩ := run_bind_ok h
    obtain ⟨hshape, rfl, hitems⟩ := ih h₂
    obtain ⟨rfl, rfl⟩ := run_pure_ok h
    obtain ⟨hpos, hne, rfl, rfl⟩ := transformCypherDeleteItem_spec h₁
    have hshape₁ := getTargetEntryResno_shape tl u.varName
    refine ⟨hshape.trans hshape₁, rfl, ?_⟩
    rintro v (_ | ⟨_, hv⟩)
    · exact ⟨hpos, hne⟩
    · rw [← getTargetEntryResno_fst_of_shape v.varName hshape₁]
      exact hitems v hv

end Update

end AgeCypher
